import GhostApi.Approvals.Size

/-!
# Edit and resubmit

Superseding a request, requesting its replacement and linking the two are
three mutations. The first one stays when a later one throws, so the call is
atomic only when nothing it does after the first write can throw any more.
-/

namespace GhostApi.Approvals

open Js Validation Storage Effect Effect.Mutation Table
open Actions (ActionEnvelope EffectsAllowed actionHash validateActionEnvelope_ok)

/-! ## Marks -/

abbrev Mark := Identifier × ApprovalRequestStatus × List ApprovalDecision

def mark (request : ApprovalRequest) : Mark := (request.id, request.status, request.decisions)

/-- The status and the decisions of every request as they are after a refresh. -/
def marks (t : Int) (state : ApprovalInboxState) : List Mark := (refresh t state).requests.map mark

section Marks

variable {t now : Int} {state : ApprovalInboxState} {request : ApprovalRequest}

theorem marks_eq (t : Int) (state : ApprovalInboxState) :
    marks t state = state.requests.map fun request => mark (lapsed t request) := by
  rw [marks, refresh_requests, List.map_map]
  rfl

theorem lapsed_status (t : Int) (request : ApprovalRequest) : (lapsed t request).status =
    if request.status = .pending ∧ parsed request.escalationAt ≤ t then .timedOut
    else if (request.status = .pending ∨ request.status = .approved) ∧ parsed request.expiresAt ≤ t then .expired
    else request.status := by
  rw [lapsed, lapse]
  split
  · rfl
  · split <;> rfl

theorem lapsed_with (t : Int) (request : ApprovalRequest) :
    lapsed t request = { request with status := (lapsed t request).status } := by
  obtain ⟨status, hLapsed, _⟩ := lapsed_eq t request
  rw [hLapsed]

theorem mark_lapsed (t : Int) (request : ApprovalRequest) :
    mark (lapsed t request) = (request.id, (lapsed t request).status, request.decisions) := by
  rw [lapsed_with]
  rfl

theorem lapsed_superseded (t : Int) (request : ApprovalRequest) :
    (lapsed t request).status = .superseded ↔ request.status = .superseded := by
  rw [lapsed_status]
  split
  · simp_all
  · split
    · rename_i _ hActive
      rcases hActive.1 with hStatus | hStatus <;> simp [hStatus]
    · exact Iff.rfl

theorem mark_lapsed_lapsed (h : request.Timely) (hLater : now ≤ t) :
    mark (lapsed t (lapsed now request)) = mark (lapsed t request) := by
  have hOrder := h.escalated
  have hStatus : (lapsed t (lapsed now request)).status = (lapsed t request).status := by
    rw [lapsed_status t (lapsed now request), lapsed_status t request, lapsed_with now request]
    dsimp only
    rw [lapsed_status now request]
    grind
  rw [mark_lapsed, mark_lapsed, hStatus, lapsed_with now request]

theorem marks_refresh (h : Valid state) (hLater : now ≤ t) : marks t (refresh now state) = marks t state := by
  rw [marks_eq, marks_eq, refresh_requests, List.map_map]
  exact List.map_congr_left fun request hRequest => mark_lapsed_lapsed (h.requests request hRequest).timely hLater

theorem marks_withRequest (h : Valid state) (hLater : now ≤ t) :
    marks t (withRequest request now state) = marks t state ++ [mark (lapsed t request)] := by
  rw [← marks_refresh h hLater, marks_eq, marks_eq, withRequest, appendAudit_requests, pushRequest, List.map_append,
    List.map_singleton]

theorem find_of_mem (h : Valid state) (hMem : request ∈ state.requests) :
    state.requests.find? (·.id == request.id) = some request := by
  cases hFind : state.requests.find? (·.id == request.id) with
  | none =>
    rw [List.find?_eq_none] at hFind
    exact absurd (beq_self_eq_true request.id) (hFind request hMem)
  | some found =>
    have hId := List.find?_some hFind
    rw [beq_iff_eq] at hId
    have hSame := List.inj_on_of_nodup_map h.ids (List.mem_of_find?_eq_some hFind) hMem (congrArg Subtype.val hId)
    rw [hSame]

theorem ids_nodup (h : Valid state) : (state.requests.map ApprovalRequest.id).Nodup := by
  have hIds := h.ids
  rw [show (fun request : ApprovalRequest => request.id.val) = Subtype.val ∘ ApprovalRequest.id from rfl,
    ← List.map_map] at hIds
  exact hIds.of_map

theorem marks_link (oldId : Identifier) (hFind : state.requests.find? (·.id == request.id) = some request) :
    marks t (setRequest { request with supersedesRequestId := some oldId } state) = marks t state := by
  rw [marks_eq, marks_eq]
  refine map_upsert (fun request => mark (lapsed t request)) hFind ?_
  rw [mark_lapsed, mark_lapsed, lapsed_status, lapsed_status]

/-! ## Superseding a request -/

/-- The mark of a request once the request with an id is superseded. -/
def supersededMark (id : Identifier) (mark : Mark) : Mark := if mark.1 = id then (id, .superseded, mark.2.2) else mark

/-- The state that the first mutation of an edit writes. -/
def superseding (old : ApprovalRequest) (actorId : Identifier) (now : Int) (state : ApprovalInboxState) :
    ApprovalInboxState :=
  let superseded := { old with status := .superseded }
  appendAudit requestSuperseded superseded actorId now (setRequest superseded (refresh now state))

variable {old : ApprovalRequest} {actorId : Identifier}

theorem refreshed_ids_nodup (h : Valid state) (now : Int) : ((refresh now state).requests.map ApprovalRequest.id).Nodup := by
  rw [refresh_requests, map_lapsed fun _ _ => rfl]
  exact ids_nodup h

theorem superseding_requests (h : Valid state)
    (hFind : (refresh now state).requests.find? (·.id == old.id) = some old) :
    (superseding old actorId now state).requests = (refresh now state).requests.map fun request =>
      if request.id == old.id then { old with status := .superseded } else request :=
  upsert_eq_map (refreshed_ids_nodup h now) hFind

theorem marks_superseding (h : Valid state) (hFind : (refresh now state).requests.find? (·.id == old.id) = some old)
    (hLater : now ≤ t) : marks t (superseding old actorId now state) = (marks t state).map (supersededMark old.id) := by
  rw [← marks_refresh h hLater, marks_eq, marks_eq, superseding_requests h hFind, List.map_map, List.map_map]
  refine List.map_congr_left fun request hRequest => ?_
  rw [Function.comp_apply, Function.comp_apply, mark_lapsed t request, supersededMark]
  by_cases hSame : request.id = old.id
  · have hOld : request = old := by
      have hNodup := refreshed_ids_nodup h now
      exact List.inj_on_of_nodup_map hNodup hRequest (List.mem_of_find?_eq_some hFind) hSame
    have hSuperseded : (lapsed t { old with status := .superseded }).status = .superseded :=
      (lapsed_superseded t _).mpr rfl
    rw [if_pos (beq_iff_eq.mpr hSame), if_pos hSame, mark_lapsed, hSuperseded, hOld]
  · have hOther : ¬(request.id == old.id) = true := fun h => hSame (eq_of_beq h)
    rw [if_neg hOther, if_neg hSame, mark_lapsed]

theorem marks_superseded (h : Valid state) (hFind : (refresh now state).requests.find? (·.id == old.id) = some old)
    (hLater : now ≤ t) : (marks t state).map (supersededMark old.id) = marks t state ↔ old.status = .superseded := by
  rw [← marks_refresh h hLater, marks_eq, List.map_map]
  constructor
  · intro hSame
    have hMem := List.mem_of_find?_eq_some hFind
    have hMark := List.map_inj_left.mp hSame old hMem
    rw [Function.comp_apply, mark_lapsed, supersededMark, if_pos rfl] at hMark
    have hStatus : ApprovalRequestStatus.superseded = (lapsed t old).status := congrArg (fun m : Mark => m.2.1) hMark
    exact (lapsed_superseded t old).mp hStatus.symm
  · intro hStatus
    refine List.map_congr_left fun request hRequest => ?_
    rw [Function.comp_apply, mark_lapsed, supersededMark]
    split
    · rename_i hSame
      have hOld : request = old :=
        List.inj_on_of_nodup_map (refreshed_ids_nodup h now) hRequest (List.mem_of_find?_eq_some hFind) hSame
      rw [hOld, (lapsed_superseded t old).mpr hStatus]
    · rfl

theorem superseding_valid (h : Valid state) (hFind : (refresh now state).requests.find? (·.id == old.id) = some old) :
    Valid (superseding old actorId now state) ↔ (refresh now state).audit.length < MAX_AUDIT ∧ Printable now := by
  rw [superseding, valid_appendAudit]
  constructor
  · exact fun hValid => hValid.2
  · rintro ⟨hRoom, hNow⟩
    have hRefreshed := (refresh_valid h).mpr ⟨Nat.le_of_lt hRoom, fun _ => hNow⟩
    have hOld := hRefreshed.requests old (List.mem_of_find?_eq_some hFind)
    exact ⟨setRequest_valid hRefreshed hFind rfl (hOld.withStatus (by simp) rfl), hRoom, hNow⟩

end Marks

/-! ## The first mutation -/

section Supersede

variable {now : Int} {state after : ApprovalInboxState} {requestId : Identifier} {approverId : String}
  {result : ApprovalRequest}

def ApprovalRequest.Editable (request : ApprovalRequest) : Prop :=
  ¬(request.status = .executing ∨ request.status = .executed ∨ request.consumedAt ≠ none)

theorem findRequest_ok {request : ApprovalRequest} :
    findRequest state requestId = .ok request ↔ state.requests.find? (·.id == requestId) = some request := by
  rw [findRequest]
  cases state.requests.find? (·.id == requestId) with
  | none => simp
  | some found => exact ⟨fun h => congrArg some (Except.ok.inj h), fun h => congrArg Except.ok (Option.some.inj h)⟩

theorem supersedeOp_written (h : Valid state) :
    supersedeOp requestId approverId now state = (.ok result, after) ∧ Valid after ↔
      ∃ old actorId, (refresh now state).requests.find? (·.id == requestId) = some old ∧ old.Editable ∧
        approverId = actorId.val ∧ (refresh now state).audit.length < MAX_AUDIT ∧ Printable now ∧
        result = { old with status := .superseded } ∧ after = superseding old actorId now state := by
  have hId : ∀ old : ApprovalRequest, (refresh now state).requests.find? (·.id == requestId) = some old →
      old.id = requestId := by
    intro old hFind
    have hSame := List.find?_some hFind
    rwa [beq_iff_eq] at hSame
  constructor
  · rintro ⟨hRun, hValid⟩
    rw [supersedeOp, modify_bind, get_bind] at hRun
    obtain ⟨old, _, hStep, hRun⟩ := bind_ok hRun
    obtain ⟨hOld, rfl⟩ := lift_ok hStep
    obtain ⟨_, _, hStep, hRun⟩ := bind_ok hRun
    obtain ⟨hOpen, rfl⟩ := throwIf_ok hStep
    rw [modify_bind] at hRun
    obtain ⟨actorId, _, hStep, hRun⟩ := bind_ok hRun
    obtain ⟨hActor, rfl⟩ := lift_ok hStep
    rw [modify_bind] at hRun
    obtain ⟨rfl, rfl⟩ := pure_ok hRun
    have hFind := findRequest_ok.mp hOld
    obtain rfl := hId old hFind
    obtain ⟨hRoom, hNow⟩ := (superseding_valid h hFind).mp hValid
    exact ⟨old, actorId, hFind, hOpen, (identifierOr_ok hActor).symm, hRoom, hNow, rfl, rfl⟩
  · rintro ⟨old, actorId, hFind, hOpen, rfl, hRoom, hNow, rfl, rfl⟩
    obtain rfl := hId old hFind
    refine ⟨?_, (superseding_valid h hFind).mpr ⟨hRoom, hNow⟩⟩
    rw [supersedeOp, modify_bind, get_bind, findRequest_ok.mpr hFind, lift_bind, bind_of_ok (throwIf_of_not hOpen _ _),
      modify_bind, identifier_val, lift_bind]
    rfl

end Supersede

/-! ## The later mutations -/

theorem timestamp_ok {clock : Option Int} {now : Int} (h : format.timestamp clock = .ok now) : clock = some now := by
  cases clock with
  | none => cases h
  | some ms =>
    rw [StoreFormat.timestamp] at h
    split at h
    · cases h
      rfl
    · cases h

section Resubmit

variable {input : EditInput} {choice : EditChoice} {state after : ApprovalInboxState} {old next : ApprovalRequest}
  {t : Int}

/-- What the mutation of the request for the replacement writes, when its checks pass on a stored state. -/
def Writes (input : EditInput) (choice : EditChoice) (state : ApprovalInboxState) (next : ApprovalRequest)
    (after : ApprovalInboxState) : Prop :=
  ∃ prepared now, prepare input.replacement choice.request = .ok prepared ∧ choice.request.access.lock = .ok () ∧
    format.timestamp choice.request.access.clock = .ok now ∧ format.bytes state ≤ MAX_STORE_BYTES ∧
    Creates prepared.action prepared.policy prepared.context choice.request.uuid now state next after

def Links (access : Access) (state : ApprovalInboxState) : Prop :=
  format.bytes state ≤ MAX_STORE_BYTES ∧ access.lock = .ok () ∧ (∃ ms, format.timestamp access.clock = .ok ms) ∧
    access.write = .ok ()

/-- Everything after the first mutation succeeds: the replacement is accepted, and the two files and the accesses let
the link be written. -/
def Replaceable (input : EditInput) (choice : EditChoice) (state : ApprovalInboxState) : Prop :=
  ∃ next after, Writes input choice state next after ∧ choice.request.access.write = .ok () ∧ Links choice.link after

def Adds (input : EditInput) (choice : EditChoice) (state : ApprovalInboxState) : Prop :=
  ∃ prepared now id, prepare input.replacement choice.request = .ok prepared ∧ choice.request.access.lock = .ok () ∧
    format.timestamp choice.request.access.clock = .ok now ∧ format.bytes state ≤ MAX_STORE_BYTES ∧
    Admissible prepared.action prepared.policy prepared.context choice.request.uuid now state id ∧
    (choice.request.access.write = .ok () ∨ choice.request.access.reached = true)

theorem writes_iff (h : Valid state) : Writes input choice state next after ↔
    ∃ prepared, prepare input.replacement choice.request = .ok prepared ∧
      run (createOp prepared.action prepared.policy prepared.context choice.request.uuid) choice.request.access
        (some state) = .ok (next, after) := by
  constructor
  · rintro ⟨prepared, now, hPrepare, hLock, hClock, hBytes, hCreates⟩
    obtain ⟨hRun, hValid⟩ := (createOp_written h (prepare_ok hPrepare)).mpr hCreates
    exact ⟨prepared, hPrepare, run_eq_ok.mpr ⟨hLock, state, now, (read_stored h).mpr hBytes, hClock, hRun, hValid⟩⟩
  · rintro ⟨prepared, hPrepare, hRun⟩
    obtain ⟨hLock, stored, now, hRead, hClock, hCreate, hValid⟩ := run_eq_ok.mp hRun
    obtain ⟨rfl, _⟩ := read_ok hRead
    exact ⟨prepared, now, hPrepare, hLock, hClock, (read_stored h).mp hRead,
      (createOp_written h (prepare_ok hPrepare)).mp ⟨hCreate, hValid⟩⟩

theorem Writes.valid (h : Valid state) (hWrites : Writes input choice state next after) : Valid after := by
  obtain ⟨_, _, hRun⟩ := (writes_iff h).mp hWrites
  obtain ⟨_, _, _, _, _, _, hValid⟩ := run_eq_ok.mp hRun
  exact hValid

theorem Writes.stored (h : Valid state) (hWrites : Writes input choice state next after) : next ∈ after.requests ∧
    ∀ other ∈ state.requests, other.status = .superseded → next.actionHash ≠ other.actionHash := by
  obtain ⟨prepared, now, _, _, _, _, ⟨hFind, rfl, hRefresh⟩ | ⟨id, hAdmissible, rfl, rfl⟩⟩ := hWrites
  · have hMem := List.mem_of_find?_eq_some hFind
    refine ⟨hMem, fun other hOther hStatus hSame => ?_⟩
    have hStands := List.find?_some hFind
    rw [stands, Bool.and_eq_true, decide_eq_true_eq] at hStands
    have hRefreshed : lapsed now other ∈ (refresh now state).requests := List.mem_map_of_mem hOther
    have hHash : (lapsed now other).actionHash = other.actionHash := by rw [lapsed_with]
    have hNext : next = lapsed now other :=
      List.inj_on_of_nodup_map ((refresh_valid h).mpr hRefresh).hashes hMem hRefreshed
        (congrArg Subtype.val (hSame.trans hHash.symm))
    exact hStands.2 (hNext ▸ (lapsed_superseded now other).mpr hStatus)
  · exact ⟨List.mem_append_right _ (List.mem_singleton_self _), fun other hOther _ hSame =>
      hAdmissible.unused other hOther hSame.symm⟩

theorem Writes.marks_after (h : Valid state) (hWrites : Writes input choice state next after)
    (hLater : ∀ ms, choice.request.access.clock = some ms → ms ≤ t) :
    marks t after = marks t state ∧ ¬Adds input choice state ∨
      marks t after = marks t state ++ [mark (lapsed t next)] ∧
        ((choice.request.access.write = .ok () ∨ choice.request.access.reached = true) → Adds input choice state) := by
  obtain ⟨prepared, now, hPrepare, hLock, hClock, hBytes, ⟨hFind, rfl, _⟩ | ⟨id, hAdmissible, rfl, rfl⟩⟩ := hWrites
  · refine .inl ⟨marks_refresh h (hLater now (timestamp_ok hClock)), ?_⟩
    rintro ⟨prepared', now', id, hPrepare', _, hClock', _, hAdmissible, _⟩
    obtain rfl := Except.ok.inj (hPrepare.symm.trans hPrepare')
    obtain rfl := Except.ok.inj (hClock.symm.trans hClock')
    rw [find_stands_of_unused hAdmissible.unused] at hFind
    cases hFind
  · refine .inr ⟨marks_withRequest h (hLater now (timestamp_ok hClock)), fun hWrite => ?_⟩
    exact ⟨prepared, now, id, hPrepare, hLock, hClock, hBytes, hAdmissible, hWrite⟩

theorem linkOp_ok {oldId : Identifier} (now : Int) (hFind : state.requests.find? (·.id == next.id) = some next) :
    linkOp next.id oldId now state = (.ok { next with supersedesRequestId := some oldId },
      setRequest { next with supersedesRequestId := some oldId } state) := by
  rw [linkOp, get_bind, findRequest_ok.mpr hFind, lift_bind]
  rfl

theorem run_linkOp (h : Valid state) (hMem : next ∈ state.requests) (oldId : Identifier) (access : Access) :
    run (linkOp next.id oldId) access (some state) = .ok ({ next with supersedesRequestId := some oldId },
      setRequest { next with supersedesRequestId := some oldId } state) ↔
    access.lock = .ok () ∧ format.bytes state ≤ MAX_STORE_BYTES ∧ ∃ ms, format.timestamp access.clock = .ok ms := by
  have hFind := find_of_mem h hMem
  constructor
  · intro hRun
    obtain ⟨hLock, stored, now, hRead, hClock, _⟩ := run_eq_ok.mp hRun
    obtain ⟨rfl, _⟩ := read_ok hRead
    exact ⟨hLock, (read_stored h).mp hRead, now, hClock⟩
  · rintro ⟨hLock, hBytes, now, hClock⟩
    refine run_eq_ok.mpr ⟨hLock, state, now, (read_stored h).mpr hBytes, hClock, linkOp_ok now hFind, ?_⟩
    exact setRequest_valid h hFind rfl ((h.requests next hMem).withLink oldId)

theorem Writes.unique (h : Valid state) {next' : ApprovalRequest} {after' : ApprovalInboxState}
    (hWrites : Writes input choice state next after) (hWrites' : Writes input choice state next' after') :
    next = next' ∧ after = after' := by
  obtain ⟨prepared, hPrepare, hRun⟩ := (writes_iff h).mp hWrites
  obtain ⟨prepared', hPrepare', hRun'⟩ := (writes_iff h).mp hWrites'
  obtain rfl := Except.ok.inj (hPrepare.symm.trans hPrepare')
  exact Prod.mk.inj (Except.ok.inj (hRun.symm.trans hRun'))

theorem link_cases (h : Valid state) (hMem : next ∈ state.requests) (oldId : Identifier) (access : Access) :
    (Links access state ∧ mutate (linkOp next.id oldId) access (some state) =
      (.ok { next with supersedesRequestId := some oldId },
        some (setRequest { next with supersedesRequestId := some oldId } state))) ∨
    ¬Links access state ∧ ∃ e left, mutate (linkOp next.id oldId) access (some state) = (.error e, some left) ∧
      ∀ t, marks t left = marks t state := by
  have hLinked := run_linkOp h hMem oldId access
  cases hRun : run (linkOp next.id oldId) access (some state) with
  | error e =>
    refine .inr ⟨fun hLinks => ?_, e, state, mutate_of_error hRun, fun _ => rfl⟩
    cases hRun.symm.trans (hLinked.mpr ⟨hLinks.2.1, hLinks.1, hLinks.2.2.1⟩)
  | ok result =>
    obtain ⟨hLock, stored, now, hRead, hClock, _⟩ := run_eq_ok.mp hRun
    obtain ⟨rfl, _⟩ := read_ok hRead
    have hBytes := (read_stored h).mp hRead
    have hLinkRun := hLinked.mpr ⟨hLock, hBytes, now, hClock⟩
    rw [mutate_of_run hLinkRun, Access.leaves]
    cases hWrite : access.write with
    | ok u => exact .inl ⟨⟨hBytes, hLock, ⟨now, hClock⟩, hWrite⟩, rfl⟩
    | error e =>
      have hNot : ¬Links access stored := fun hLinks => by cases hWrite.symm.trans hLinks.2.2.2
      cases access.reached with
      | true => exact .inr ⟨hNot, e, _, rfl, fun t => marks_link oldId (find_of_mem h hMem)⟩
      | false => exact .inr ⟨hNot, e, _, rfl, fun _ => rfl⟩

theorem Adds.writes (hAdds : Adds input choice state) : ∃ next after, Writes input choice state next after := by
  obtain ⟨prepared, now, id, hPrepare, hLock, hClock, hBytes, hAdmissible, _⟩ := hAdds
  exact ⟨_, _, prepared, now, hPrepare, hLock, hClock, hBytes, .inr ⟨id, hAdmissible, rfl, rfl⟩⟩

theorem request_cases (h : Valid state) :
    (∃ next after, Writes input choice state next after ∧ request input.replacement choice.request (some state) =
      (choice.request.access.write.map fun _ => next, choice.request.access.leaves after (some state))) ∨
    (¬∃ next after, Writes input choice state next after) ∧
      ∃ e, request input.replacement choice.request (some state) = (.error e, some state) := by
  cases hPrepare : prepare input.replacement choice.request with
  | error e =>
    refine .inr ⟨?_, e, ?_⟩
    · rintro ⟨_, _, prepared, _, hPrepared, _⟩
      rw [hPrepare] at hPrepared
      cases hPrepared
    · rw [request, hPrepare, lift_error_bind]
  | ok prepared =>
    rw [request_of_prepared hPrepare]
    cases hRun : run (createOp prepared.action prepared.policy prepared.context choice.request.uuid)
        choice.request.access (some state) with
    | error e =>
      refine .inr ⟨?_, e, mutate_of_error hRun⟩
      rintro ⟨next, after, hWrites⟩
      obtain ⟨prepared', hPrepare', hRun'⟩ := (writes_iff h).mp hWrites
      obtain rfl := Except.ok.inj (hPrepare.symm.trans hPrepare')
      rw [hRun] at hRun'
      cases hRun'
    | ok result =>
      exact .inl ⟨result.1, result.2, (writes_iff h).mpr ⟨prepared, hPrepare, hRun⟩, mutate_of_run hRun⟩

/-- A time that is not before any clock reading of the call. -/
def EditChoice.Past (choice : EditChoice) (t : Int) : Prop :=
  ∀ clock ∈ [choice.supersede.clock, choice.request.clock, choice.request.access.clock, choice.link.clock],
    ∀ ms, clock = some ms → ms ≤ t

/-- How the later mutations fail: without a new mark or after the new request has been written. -/
def Fails (input : EditInput) (choice : EditChoice) (state : ApprovalInboxState)
    (outcome : Except JsError ApprovalRequest × Store) : Prop :=
  ∃ e after, outcome = (.error e, some after) ∧ ∀ t, choice.Past t →
    marks t after = marks t state ∧ ¬Adds input choice state ∨
      (∃ added, marks t after = marks t state ++ [added]) ∧ Adds input choice state

theorem Writes.fails (h : Valid state) (hWrites : Writes input choice state next after)
    (hWrite : choice.request.access.write = .ok () ∨ choice.request.access.reached = true) {left : ApprovalInboxState}
    (hLeft : ∀ t, marks t left = marks t after) (e : JsError) : Fails input choice state (.error e, some left) := by
  refine ⟨e, left, rfl, fun t hPast => ?_⟩
  rw [hLeft t]
  rcases hWrites.marks_after h (hPast _ (by simp)) with hOld | ⟨hMarks, hAdds⟩
  · exact .inl hOld
  · exact .inr ⟨⟨_, hMarks⟩, hAdds hWrite⟩

theorem resubmit_cases (h : Valid state)
    (hOld : ∃ other ∈ state.requests, other.status = .superseded ∧ other.actionHash = old.actionHash) :
    (Replaceable input choice state ∧ ∃ next after, Writes input choice state next after ∧
      next.actionHash ≠ old.actionHash ∧ resubmit input choice old (some state) =
        (.ok { next with supersedesRequestId := some old.id },
          some (setRequest { next with supersedesRequestId := some old.id } after))) ∨
    ¬Replaceable input choice state ∧ Fails input choice state (resubmit input choice old (some state)) := by
  rcases request_cases h with ⟨next, after, hWrites, hRequest⟩ | ⟨hNever, e, hRequest⟩
  · obtain ⟨other, hOther, hStatus, hSame⟩ := hOld
    obtain ⟨hMem, hApart⟩ := hWrites.stored h
    have hHash : next.actionHash ≠ old.actionHash := hSame ▸ hApart other hOther hStatus
    have hAfter := hWrites.valid h
    have hUnique : Replaceable input choice state → choice.request.access.write = .ok () ∧ Links choice.link after := by
      rintro ⟨next', after', hWrites', hAll⟩
      obtain ⟨rfl, rfl⟩ := hWrites.unique h hWrites'
      exact hAll
    cases hWrite : choice.request.access.write with
    | error e =>
      have hNot : ¬Replaceable input choice state := fun hAll => by cases hWrite.symm.trans (hUnique hAll).1
      rw [hWrite, Access.leaves, hWrite] at hRequest
      have hResubmit : resubmit input choice old (some state) =
          (.error e, if choice.request.access.reached then some after else some state) := bind_of_error hRequest
      rw [hResubmit]
      cases hReached : choice.request.access.reached with
      | true => exact .inr ⟨hNot, hWrites.fails h (.inr hReached) (fun _ => rfl) e⟩
      | false =>
        refine .inr ⟨hNot, e, state, rfl, fun t _ => .inl ⟨rfl, ?_⟩⟩
        rintro ⟨_, _, _, _, _, _, _, _, hOk | hTrue⟩
        · cases hWrite.symm.trans hOk
        · cases hReached.symm.trans hTrue
    | ok u =>
      rw [hWrite, Access.leaves, hWrite] at hRequest
      have hResubmit : resubmit input choice old (some state) =
          mutate (linkOp next.id old.id) choice.link (some after) :=
        (bind_of_ok hRequest).trans (bind_of_ok (throwIf_of_not hHash _ _))
      rw [hResubmit]
      rcases link_cases hAfter hMem old.id choice.link with ⟨hLinks, hLink⟩ | ⟨hLinks, e, left, hLink, hLeft⟩
      · exact .inl ⟨⟨next, after, hWrites, hWrite, hLinks⟩, next, after, hWrites, hHash, hLink⟩
      · rw [hLink]
        exact .inr ⟨fun hAll => hLinks (hUnique hAll).2, hWrites.fails h (.inl hWrite) hLeft e⟩
  · have hFails : resubmit input choice old (some state) = (.error e, some state) := bind_of_error hRequest
    refine .inr ⟨?_, e, state, hFails, fun t _ => .inl ⟨rfl, fun hAdds => hNever hAdds.writes⟩⟩
    rintro ⟨next, after, hWrites, _⟩
    exact hNever ⟨next, after, hWrites⟩

end Resubmit

/-! ## The whole call -/

section Edit

variable {input : EditInput} {choice : EditChoice} {store : Store} {state after : ApprovalInboxState}
  {old next : ApprovalRequest} {actorId : Identifier} {now t : Int}

/-- All that lets the first mutation write: an approver, a stored request that may be edited, and room for the record. -/
structure Supersedes (input : EditInput) (choice : EditChoice) (store : Store) (state : ApprovalInboxState)
    (old : ApprovalRequest) (actorId : Identifier) (now : Int) : Prop where
  approver : choice.approver = .ok actorId.val
  requestId : identifier fail input.requestId "Approval request id" = .ok old.id
  lock : choice.supersede.lock = .ok ()
  readable : read store = .ok state
  clock : format.timestamp choice.supersede.clock = .ok now
  found : (refresh now state).requests.find? (·.id == old.id) = some old
  editable : old.Editable
  room : (refresh now state).audit.length < MAX_AUDIT
  printable : Printable now

theorem Supersedes.unique {state' : ApprovalInboxState} {old' : ApprovalRequest} {actorId' : Identifier} {now' : Int}
    (h : Supersedes input choice store state old actorId now)
    (h' : Supersedes input choice store state' old' actorId' now') :
    state = state' ∧ old = old' ∧ actorId = actorId' ∧ now = now' := by
  obtain rfl := Except.ok.inj (h.readable.symm.trans h'.readable)
  obtain rfl := Except.ok.inj (h.clock.symm.trans h'.clock)
  have hId := Except.ok.inj (h.requestId.symm.trans h'.requestId)
  have hOld : old = old' := Option.some.inj (h.found.symm.trans (hId ▸ h'.found))
  have hActor : actorId = actorId' := Subtype.ext (Except.ok.inj (h.approver.symm.trans h'.approver))
  exact ⟨rfl, hOld, hActor, rfl⟩

theorem Supersedes.run_eq (h : Supersedes input choice store state old actorId now) :
    run (supersedeOp old.id actorId.val) choice.supersede store =
      .ok ({ old with status := .superseded }, superseding old actorId now state) := by
  obtain ⟨hRun, hValid⟩ := (supersedeOp_written (read_ok h.readable).2).mpr
    ⟨old, actorId, h.found, h.editable, rfl, h.room, h.printable, rfl, rfl⟩
  exact run_eq_ok.mpr ⟨h.lock, state, now, h.readable, h.clock, hRun, hValid⟩

theorem Supersedes.edit_eq (h : Supersedes input choice store state old actorId now) :
    editAndResubmit input choice store =
      (mutate (supersedeOp old.id actorId.val) choice.supersede >>= resubmit input choice) store := by
  rw [editAndResubmit, h.approver, lift_bind, h.requestId, lift_bind]

theorem edit_refused (h : ¬∃ state old actorId now, Supersedes input choice store state old actorId now) :
    ∃ e, editAndResubmit input choice store = (.error e, store) := by
  rw [editAndResubmit]
  cases hApprover : choice.approver with
  | error e => exact ⟨e, lift_error_bind e _ _⟩
  | ok approverId =>
    rw [lift_bind]
    cases hId : identifier fail input.requestId "Approval request id" with
    | error e => exact ⟨e, lift_error_bind e _ _⟩
    | ok requestId =>
      rw [lift_bind]
      cases hRun : run (supersedeOp requestId approverId) choice.supersede store with
      | error e => exact ⟨e, bind_of_error (mutate_of_error hRun)⟩
      | ok result =>
        obtain ⟨hLock, state, now, hRead, hClock, hWritten⟩ := run_eq_ok.mp hRun
        obtain ⟨old, actorId, hFind, hOpen, rfl, hRoom, hNow, _⟩ := (supersedeOp_written (read_ok hRead).2).mp hWritten
        have hSame := List.find?_some hFind
        rw [beq_iff_eq] at hSame
        obtain rfl := hSame
        exact absurd ⟨state, old, actorId, now, hApprover, hId, hLock, hRead, hClock, hFind, hOpen, hRoom, hNow⟩ h

/-- The old request was superseded, its replacement is stored with a link to it, and nothing else happened. -/
def Replaced (input : EditInput) (choice : EditChoice) (before after : ApprovalInboxState) (next : ApprovalRequest) :
    Prop :=
  ∃ old ∈ before.requests, identifier fail input.requestId "Approval request id" = .ok old.id ∧
    next.actionHash ≠ old.actionHash ∧ next.supersedesRequestId = some old.id ∧ next ∈ after.requests ∧
    ∀ t, choice.Past t → ∃ added, marks t after = (marks t before).map (supersededMark old.id) ++ added ∧
      (added = [] ∨ added = [mark (lapsed t next)])

/-- A call that throws leaves the marks as they are after a refresh; one that succeeds has replaced the request. -/
def Atomic (input : EditInput) (choice : EditChoice) (before : ApprovalInboxState) :
    Except JsError ApprovalRequest × Store → Prop
  | (.error _, after) => ∀ t, choice.Past t → marks t (after.getD emptyState) = marks t before
  | (.ok next, after) => Replaced input choice before (after.getD emptyState) next

theorem exists_past (choice : EditChoice) : ∃ t, choice.Past t := by
  refine ⟨max (max (choice.supersede.clock.getD 0) (choice.request.clock.getD 0))
    (max (choice.request.access.clock.getD 0) (choice.link.clock.getD 0)), ?_⟩
  intro clock hClock ms hMs
  subst hMs
  simp only [List.mem_cons, List.not_mem_nil, or_false] at hClock
  rcases hClock with hClock | hClock | hClock | hClock
  · rw [← hClock, Option.getD_some]
    omega
  · rw [← hClock, Option.getD_some]
    omega
  · rw [← hClock, Option.getD_some]
    omega
  · rw [← hClock, Option.getD_some]
    omega

theorem Supersedes.marks_eq (h : Supersedes input choice store state old actorId now) (hPast : choice.Past t) :
    marks t (superseding old actorId now state) = (marks t state).map (supersededMark old.id) :=
  marks_superseding (read_ok h.readable).2 h.found (hPast _ List.mem_cons_self now (timestamp_ok h.clock))

theorem Supersedes.unmarked_iff (h : Supersedes input choice store state old actorId now) (hPast : choice.Past t) :
    marks t (superseding old actorId now state) = marks t state ↔ old.status = .superseded := by
  rw [h.marks_eq hPast]
  exact marks_superseded (read_ok h.readable).2 h.found (hPast _ List.mem_cons_self now (timestamp_ok h.clock))

theorem Supersedes.fails_atomic_iff (h : Supersedes input choice store state old actorId now)
    {outcome : Except JsError ApprovalRequest × Store}
    (hFails : Fails input choice (superseding old actorId now state) outcome) :
    Atomic input choice state outcome ↔
      old.status = .superseded ∧ ¬Adds input choice (superseding old actorId now state) := by
  obtain ⟨e, after, rfl, hMarks⟩ := hFails
  constructor
  · intro hAtomic
    obtain ⟨t, hPast⟩ := exists_past choice
    have hSame : marks t after = marks t state := hAtomic t hPast
    rcases hMarks t hPast with ⟨hOld, hNone⟩ | ⟨⟨added, hNew⟩, _⟩
    · exact ⟨(h.unmarked_iff hPast).mp (hOld.symm.trans hSame), hNone⟩
    · have hLength := congrArg List.length (hNew.symm.trans hSame)
      rw [h.marks_eq hPast, List.length_append, List.length_map, List.length_singleton] at hLength
      omega
  · rintro ⟨hStatus, hNone⟩ t hPast
    rcases hMarks t hPast with ⟨hOld, _⟩ | ⟨_, hAdds⟩
    · exact hOld.trans ((h.unmarked_iff hPast).mpr hStatus)
    · exact absurd hAdds hNone

theorem Supersedes.valid (h : Supersedes input choice store state old actorId now) :
    Valid (superseding old actorId now state) :=
  (superseding_valid (read_ok h.readable).2 h.found).mpr ⟨h.room, h.printable⟩

theorem Supersedes.original (h : Supersedes input choice store state old actorId now) :
    ∃ request ∈ state.requests, request.id = old.id ∧ request.actionHash = old.actionHash := by
  obtain ⟨request, hRequest, hLapsed⟩ := List.mem_map.mp (List.mem_of_find?_eq_some h.found)
  refine ⟨request, hRequest, ?_⟩
  rw [← hLapsed, lapsed_with]
  exact ⟨rfl, rfl⟩

theorem mem_superseding (old : ApprovalRequest) (actorId : Identifier) (now : Int) (state : ApprovalInboxState) :
    { old with status := .superseded } ∈ (superseding old actorId now state).requests := mem_upsert_self _ _ _

theorem Supersedes.replaced (h : Supersedes input choice store state old actorId now)
    (hWrites : Writes input choice (superseding old actorId now state) next after)
    (hHash : next.actionHash ≠ old.actionHash) :
    Replaced input choice state (setRequest { next with supersedesRequestId := some old.id } after)
      { next with supersedesRequestId := some old.id } := by
  obtain ⟨request, hRequest, hId, hSame⟩ := h.original
  have hMem := (hWrites.stored h.valid).1
  refine ⟨request, hRequest, hId ▸ h.requestId, hSame ▸ hHash, hId ▸ rfl, mem_upsert_self _ _ _, fun t hPast => ?_⟩
  rw [marks_link old.id (find_of_mem (hWrites.valid h.valid) hMem), hId, ← h.marks_eq hPast]
  rcases hWrites.marks_after h.valid (hPast _ (by simp)) with ⟨hOld, _⟩ | ⟨hNew, _⟩
  · exact ⟨[], by rw [hOld, List.append_nil], .inl rfl⟩
  · refine ⟨_, hNew, .inr ?_⟩
    rw [mark_lapsed, mark_lapsed, lapsed_status, lapsed_status]

/-- When the call is atomic: nothing is written at first, or the replacement is accepted and linked, or the request
was superseded before and no new one reaches the file. -/
def AtomicWhen (input : EditInput) (choice : EditChoice) (store : Store) : Prop :=
  ∀ state old actorId now, Supersedes input choice store state old actorId now →
    (choice.supersede.write = .ok () → Replaceable input choice (superseding old actorId now state) ∨
      old.status = .superseded ∧ ¬Adds input choice (superseding old actorId now state)) ∧
    (choice.supersede.write ≠ .ok () → choice.supersede.reached = true → old.status = .superseded)

theorem Supersedes.atomicWhen_iff (h : Supersedes input choice store state old actorId now) :
    AtomicWhen input choice store ↔
      (choice.supersede.write = .ok () → Replaceable input choice (superseding old actorId now state) ∨
        old.status = .superseded ∧ ¬Adds input choice (superseding old actorId now state)) ∧
      (choice.supersede.write ≠ .ok () → choice.supersede.reached = true → old.status = .superseded) := by
  constructor
  · exact fun hAll => hAll state old actorId now h
  · intro hThis state' old' actorId' now' h'
    obtain ⟨rfl, rfl, rfl, rfl⟩ := h.unique h'
    exact hThis

/-- The call is atomic exactly when its condition holds. -/
theorem edit_atomic_iff (input : EditInput) (choice : EditChoice) (store : Store) :
    Atomic input choice (store.getD emptyState) (editAndResubmit input choice store) ↔
      AtomicWhen input choice store := by
  by_cases hFirst : ∃ state old actorId now, Supersedes input choice store state old actorId now
  · obtain ⟨state, old, actorId, now, h⟩ := hFirst
    obtain ⟨hStore, hState⟩ := read_ok h.readable
    rw [← hStore, h.atomicWhen_iff, h.edit_eq]
    have hMutate := mutate_of_run h.run_eq
    cases hWrite : choice.supersede.write with
    | error e =>
      rw [hWrite, Access.leaves, hWrite] at hMutate
      rw [bind_of_error hMutate]
      cases hReached : choice.supersede.reached with
      | false =>
        have hAtomic : Atomic input choice state (.error e, store) := fun t _ => by rw [hStore]
        exact ⟨fun _ => ⟨by simp, by simp⟩, fun _ => hAtomic⟩
      | true =>
        constructor
        · intro hAtomic
          obtain ⟨t, hPast⟩ := exists_past choice
          exact ⟨by simp, fun _ _ => (h.unmarked_iff hPast).mp (hAtomic t hPast)⟩
        · rintro ⟨_, hStatus⟩ t hPast
          exact (h.unmarked_iff hPast).mpr (hStatus (by simp) rfl)
    | ok u =>
      rw [hWrite, Access.leaves, hWrite] at hMutate
      rw [bind_of_ok hMutate]
      have hOld : ∃ other ∈ (superseding old actorId now state).requests, other.status = .superseded ∧
          other.actionHash = ({ old with status := .superseded } : ApprovalRequest).actionHash :=
        ⟨_, mem_superseding old actorId now state, rfl, rfl⟩
      rcases resubmit_cases h.valid hOld with ⟨hAll, next, after, hWrites, hHash, hResubmit⟩ | ⟨hNot, hFails⟩
      · rw [hResubmit]
        exact ⟨fun _ => ⟨fun _ => .inl hAll, by simp⟩, fun _ => h.replaced hWrites hHash⟩
      · rw [h.fails_atomic_iff hFails]
        constructor
        · exact fun hUntouched => ⟨fun _ => .inr hUntouched, by simp⟩
        · exact fun hCondition => (hCondition.1 rfl).resolve_left hNot
  · obtain ⟨e, hEdit⟩ := edit_refused hFirst
    rw [hEdit]
    constructor
    · exact fun _ state old actorId now h => absurd ⟨state, old, actorId, now, h⟩ hFirst
    · exact fun _ t _ => rfl

end Edit

/-! ## An edit with an unusable replacement -/

def firstState : ApprovalInboxState :=
  withRequest (newRequest sampleAction (samplePolicy second) sampleContext sampleId 0) 0 emptyState

theorem firstState_valid : Valid firstState :=
  (withRequest_valid emptyState_valid (validateActionEnvelope_ok sampleAction_accepted) (if_pos rfl)).mpr
    ⟨fun _ hRequest => absurd hRequest List.not_mem_nil, fun _ hRequest => absurd hRequest List.not_mem_nil,
      (by decide : 0 < 1000), (by decide : 0 < 10000), sample_times⟩

theorem firstState_readable : read (some firstState) = .ok firstState :=
  first_readable (by decide) (by decide) firstState_valid

def approverName : Identifier := Actions.approverName

/-- An edit of the first request whose replacement is no action. -/
def brokenEdit : EditInput := ⟨.string sampleId.val, ⟨.undefined, .undefined, .undefined⟩⟩

def editChoice : EditChoice where
  approver := .ok approverName.val
  supersede := { clock := some 0 }
  request := sampleChoice 0
  link := { clock := some 0 }

def firstRequest : ApprovalRequest := newRequest sampleAction (samplePolicy second) sampleContext sampleId 0

theorem refresh_firstState : refresh 0 firstState = firstState := by
  obtain ⟨_, _, hExpiry, hEscalation⟩ := sample_times
  have hEscalates : parsed firstRequest.escalationAt = 1000 := parsed_toISOString hEscalation
  have hExpires : 1000 ≤ parsed firstRequest.expiresAt := by
    rw [← hEscalates]
    exact (firstState_valid.requests _ List.mem_cons_self).timely.escalated
  have hLapse : lapse 0 firstRequest = none := by
    rw [lapse, if_neg (by omega), if_neg (by omega)]
  have hRequests : firstState.requests = [firstRequest] := rfl
  have hNoted : noteLapse 0 firstState firstRequest = firstState := by
    rw [noteLapse, hLapse]
    rfl
  rw [refresh, hRequests, List.foldl_cons, List.foldl_nil, hNoted, List.map_singleton, lapsed, hLapse]
  rfl

theorem first_supersedes :
    Supersedes brokenEdit editChoice (some firstState) firstState firstRequest approverName 0 where
  approver := rfl
  requestId := identifier_val sampleId _
  lock := rfl
  readable := firstState_readable
  clock := rfl
  found := by
    rw [refresh_firstState]
    exact find_of_mem firstState_valid List.mem_cons_self
  editable := by simp [ApprovalRequest.Editable, firstRequest, newRequest, created]
  room := by
    rw [refresh_firstState]
    exact (by decide : 1 < 10000)
  printable := sampleTimes_printable 0 (by simp)

theorem first_request : request (sampleInput second) (sampleChoice 0) none = (.ok firstRequest, some firstState) := by
  have hPermitted : Permitted (sampleInput second) (sampleChoice 0) none (samplePrepared second) emptyState 0 sampleId :=
    sample_permitted samples_accepted.1 (by decide)
  have hAdmissible : Admissible sampleAction (samplePolicy second) sampleContext sampleUuid 0 emptyState sampleId :=
    ⟨if_pos rfl, rfl, hPermitted.name, hPermitted.fresh, fun _ hRequest => absurd hRequest List.not_mem_nil,
      hPermitted.count, hPermitted.room, sample_times.1, sample_times.2⟩
  have hRun := run_eq_ok.mpr ⟨hPermitted.lock, emptyState, 0, hPermitted.readable, hPermitted.clock,
    createOp_of_admissible hAdmissible, firstState_valid⟩
  rw [request_of_prepared hPermitted.prepare_eq]
  exact mutate_of_run hRun

/-- The first request is left superseded when its replacement is no action. -/
theorem edit_leaves_superseded :
    request (sampleInput second) (sampleChoice 0) none = (.ok firstRequest, some firstState) ∧
    editAndResubmit brokenEdit editChoice (some firstState) =
      (.error (Actions.refuse "Action envelope must be an object."),
        some (superseding firstRequest approverName 0 firstState)) ∧
    ¬Atomic brokenEdit editChoice firstState (editAndResubmit brokenEdit editChoice (some firstState)) := by
  have hRequest : request brokenEdit.replacement editChoice.request
      (some (superseding firstRequest approverName 0 firstState)) =
        (.error (Actions.refuse "Action envelope must be an object."),
          some (superseding firstRequest approverName 0 firstState)) := rfl
  have hEdit : editAndResubmit brokenEdit editChoice (some firstState) =
      (.error (Actions.refuse "Action envelope must be an object."),
        some (superseding firstRequest approverName 0 firstState)) := by
    rw [first_supersedes.edit_eq, bind_of_ok (mutate_of_run first_supersedes.run_eq)]
    exact bind_of_error hRequest
  refine ⟨first_request, hEdit, ?_⟩
  rw [hEdit]
  intro hAtomic
  obtain ⟨t, hPast⟩ := exists_past editChoice
  have hStatus := (first_supersedes.unmarked_iff hPast).mp (hAtomic t hPast)
  cases hStatus

end GhostApi.Approvals
