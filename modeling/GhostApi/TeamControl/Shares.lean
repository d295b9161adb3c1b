import GhostApi.TeamControl.RateLimiter

/-!
# The share of a key

The limiter refines one counter for each key: the window kept for a key is the
one of its counter, unless it was dropped, and then it has expired. So a key
is served as if it were alone, apart from the calls that find no place.
-/

namespace GhostApi.TeamControl

open Js Validation Transition
open FixedWindow (Window Counter enter admits Past Counted Grouped counted_initial enter_startedAt_le)
open Approvals (isoString)
open Policy (JsString)

variable {limits : Limits} {key : JsString} {state : State} {call : Call} {calls : List Call} {counter : Counter}
  {timestamp : Int}

def usable (limits : Limits) (startedAt : Int) : Bool := (isoString (startedAt + limits.windowMs.val)).toOption.isSome

theorem grant_isSome (limits : Limits) (window : Window) :
    (grant limits window).toOption.isSome = admits limits.limit.val (usable limits) window := by
  rw [grant, admits, usable]
  cases isoString (window.startedAt + limits.windowMs.val) with
  | error e => rfl
  | ok resetAt =>
    by_cases hOver : limits.limit.val < window.count
    · simp [hOver, Except.toOption]
    · simp [hOver, Except.toOption, Nat.le_of_not_lt hOver]

theorem isCapacityRefusal_grant (limits : Limits) (window : Window) : isCapacityRefusal (grant limits window) = false := by
  rw [grant, isoString]
  by_cases hRange : (window.startedAt + (limits.windowMs.val : Int)).natAbs ≤ 8640000000000000
  · rw [if_pos hRange]
    by_cases hOver : limits.limit.val < window.count
    · have hOther : rateLimitExceeded (Date.toISOString (window.startedAt + limits.windowMs.val)) ≠ keyCapacityExceeded := by
        intro hSame
        have hChars := congrArg (fun e => e.message.toList.take 5) hSame
        simp [rateLimitExceeded, keyCapacityExceeded, fail] at hChars
      simp only [hOver, if_true]
      exact decide_eq_false hOther
    · simp only [hOver, if_false]
      rfl
  · rw [if_neg hRange]
    rfl

theorem log_calls {guard : State → Call → Prop} (run : (limiter limits).Run guard calls state) :
    state.log.map Outcome.call = calls := by
  induction run with
  | start => rfl
  | next _ _ taken ih =>
    cases taken
    rw [serve, List.map_append, ih]
    rfl

/-! ## Places -/

structure Kept (limits : Limits) (state : State) : Prop where
  nodup : (state.entries.map Entry.key).Nodup
  room : state.entries.length ≤ limits.maxKeys.val

theorem Kept.count (h : Kept limits state) (key : JsString) (timestamp : Int) :
    ((count limits key timestamp state.entries).1.map Entry.key).Nodup ∧
      (count limits key timestamp state.entries).1.length ≤ limits.maxKeys.val := by
  have hNodup := @nodup_roomFor limits key timestamp _ h.nodup
  have hLength : (roomFor limits key timestamp state.entries).length ≤ limits.maxKeys.val :=
    Nat.le_trans length_roomFor_le h.room
  cases count_cases limits key timestamp state.entries with
  | inl hRefused =>
    rw [hRefused.2]
    exact ⟨hNodup, hLength⟩
  | inr hCounted =>
    rw [hCounted.2]
    constructor
    · exact Table.nodup_upsert Entry.key hNodup ⟨key, _⟩
    · by_cases hKnown : (roomFor limits key timestamp state.entries).any (fun other => decide (other.key = key)) = true
      · rw [Table.upsert, if_pos hKnown, List.length_replaceF]
        exact hLength
      · rw [Table.upsert, if_neg hKnown, List.length_append, List.length_singleton]
        refine hCounted.1 ?_
        cases hFound : windowOf state.entries key with
        | none => rfl
        | some window =>
          rw [roomFor_known hFound] at hKnown
          refine absurd (List.any_eq_true.mpr ⟨_, (windowOf_eq_some_iff h.nodup).mp hFound, ?_⟩) hKnown
          exact decide_eq_true rfl

theorem Kept.serve (h : Kept limits state) (call : Call) : Kept limits (serve limits state call) := by
  have hConsume : ((consume limits call.key call.now state.entries).1.map Entry.key).Nodup ∧
      (consume limits call.key call.now state.entries).1.length ≤ limits.maxKeys.val := by
    rw [consume]
    cases checked call.key call.now with
    | error e => exact ⟨h.nodup, h.room⟩
    | ok timestamp => exact h.count call.key timestamp
  exact ⟨hConsume.1, hConsume.2⟩

theorem kept_of_run {guard : State → Call → Prop} (run : (limiter limits).Run guard calls state) : Kept limits state := by
  refine run.invariant (I := Kept limits) ?_ fun s call s' hKept _ taken => ?_
  · exact ⟨List.nodup_nil, Nat.zero_le _⟩
  · cases taken
    exact hKept.serve call

/-! ## The counter of a key -/

/-- The window kept for the key stands for the one of its counter. -/
def Stands (limits : Limits) (timestamp : Int) (kept window : Option Window) : Prop :=
  kept = window ∨ kept = none ∧ ∀ w, window = some w → (limits.windowMs.val : Int) ≤ timestamp - w.startedAt

theorem Stands.enter_eq {kept window : Option Window} (h : Stands limits timestamp kept window) :
    enter limits.windowMs.val timestamp kept = enter limits.windowMs.val timestamp window := by
  cases h with
  | inl hSame => rw [hSame]
  | inr hDropped =>
    rw [hDropped.1]
    cases window with
    | none => rfl
    | some w => rw [enter, enter, if_pos (hDropped.2 w rfl)]

theorem Stands.later {kept window : Option Window} {later : Int} (h : Stands limits timestamp kept window)
    (hle : timestamp ≤ later) : Stands limits later kept window := by
  refine h.imp_right fun hDropped => ⟨hDropped.1, fun w hw => ?_⟩
  have hExpired := hDropped.2 w hw
  omega

theorem Stands.roomFor {entries : List Entry} {window : Option Window} (hNodup : (entries.map Entry.key).Nodup)
    (h : Stands limits timestamp (windowOf entries key) window) (newKey : JsString) :
    Stands limits timestamp (windowOf (roomFor limits newKey timestamp entries) key) window := by
  cases @windowOf_roomFor limits timestamp _ hNodup newKey key with
  | inl hSame =>
    rw [hSame]
    exact h
  | inr hDropped =>
    refine .inr ⟨hDropped.1, fun w hw => ?_⟩
    cases h with
    | inl hKept => exact hDropped.2 w (hKept.trans hw)
    | inr hGone => exact hGone.2 w hw

structure Tracks (limits : Limits) (key : JsString) (state : State) (counter : Counter) : Prop where
  admitted : counter.admitted = accepted key state.log
  counted : Counted limits.limit.val limits.windowMs.val (usable limits) counter
  past : ∀ t, state.Reached t → Past counter t
  window : ∀ t, state.Reached t → Stands limits t (windowOf state.entries key) counter.window

/-- The key alone: a run of its calls only, with the same results. -/
structure Alone (limits : Limits) (key : JsString) (state : State) (counter : Counter) (alone : State) : Prop where
  run : (limiter limits).Run Allowed ((own key state.log).map Outcome.call) alone
  log : alone.log = own key state.log
  entries : alone.entries = counter.window.toList.map (Entry.mk key)

theorem accepted_append (log : List Outcome) (outcome : Outcome) :
    accepted key (log ++ [outcome]) = accepted key log ++ (acceptedAt key outcome).toList := by
  rw [accepted, List.filterMap_append, ← accepted]
  cases h : acceptedAt key outcome with
  | none => simp [h]
  | some t => simp [h]

theorem Reached_append {outcome : Outcome} {entries entries' : List Entry} {log : List Outcome} {t : Int}
    (h : State.Reached ⟨entries', log ++ [outcome]⟩ t) :
    State.Reached ⟨entries, log⟩ t ∧ ∀ earlier, outcome.call.now = some earlier → earlier ≤ t :=
  ⟨fun other hOther => h other (List.mem_append_left _ hOther), h outcome (List.mem_append_right _ List.mem_cons_self)⟩

theorem checked_valid (h : isValidKey call.key = true) : checked call.key call.now = checkClock call.now := by
  rw [checked, checkKey, failIf, if_neg (by simp [h])]
  rfl

theorem checkClock_cases (now : Option Int) :
    checkClock now = .error (fail "Rate-limit clock is invalid.") ∨
      ∃ timestamp, now = some timestamp ∧ checkClock now = .ok timestamp := by
  cases now with
  | none => exact .inl rfl
  | some timestamp =>
    rw [checkClock]
    split
    · exact .inr ⟨timestamp, rfl, rfl⟩
    · exact .inl rfl

theorem consume_of_clock {entries : List Entry} (hKey : isValidKey call.key = true)
    (hClock : checkClock call.now = .ok timestamp) :
    consume limits call.key call.now entries = count limits call.key timestamp entries := by
  rw [consume, checked_valid hKey, hClock]

theorem consume_of_no_clock {entries : List Entry} (hKey : isValidKey call.key = true)
    (hClock : checkClock call.now = .error (fail "Rate-limit clock is invalid.")) :
    consume limits call.key call.now entries = (entries, .error (fail "Rate-limit clock is invalid.")) := by
  rw [consume, checked_valid hKey, hClock]

theorem grant_refused {window : Window} {resetAt : String} (h : grant limits window = .error (rateLimitExceeded resetAt)) :
    usable limits window.startedAt = true ∧ limits.limit.val < window.count := by
  rw [grant] at h
  rw [usable]
  cases hIso : isoString (window.startedAt + limits.windowMs.val) with
  | error e =>
    rw [hIso] at h
    rw [isoString] at hIso
    split at hIso
    · cases hIso
    · cases hIso
      have hName := congrArg JsError.name (Except.error.inj h)
      simp [rateLimitExceeded, fail] at hName
  | ok printed =>
    rw [hIso] at h
    by_cases hOver : limits.limit.val < window.count
    · exact ⟨rfl, hOver⟩
    · simp only [hOver, if_false] at h
      cases h

section Outcomes

variable {outcome : Outcome} {entries : List Entry} {alone : State}

theorem Tracks.unseen (h : Tracks limits key state counter) (hNone : acceptedAt key outcome = none)
    (hWindow : ∀ t, State.Reached ⟨entries, state.log ++ [outcome]⟩ t →
      Stands limits t (windowOf entries key) counter.window) :
    Tracks limits key ⟨entries, state.log ++ [outcome]⟩ counter where
  admitted := by rw [accepted_append, hNone, Option.toList_none, List.append_nil, h.admitted]
  counted := h.counted
  past t hReached := h.past t (Reached_append hReached).1
  window := hWindow

theorem Alone.unseen (h : Alone limits key state counter alone) (hNone : own key [outcome] = []) :
    Alone limits key ⟨entries, state.log ++ [outcome]⟩ counter alone := by
  have hOwn : own key (state.log ++ [outcome]) = own key state.log := by
    rw [own, List.filter_append, ← own, ← own, hNone, List.append_nil]
  exact ⟨by rw [hOwn]; exact h.run, by rw [hOwn]; exact h.log, h.entries⟩

theorem Tracks.counted_call (h : Tracks limits key state counter) (hNow : call.now = some timestamp)
    (hReached : state.Reached timestamp) (hKey : call.key = key)
    (hEntries : windowOf entries key = some (enter limits.windowMs.val timestamp counter.window)) :
    Tracks limits key
      ⟨entries, state.log ++ [⟨call, grant limits (enter limits.windowMs.val timestamp counter.window)⟩]⟩
      (counter.call limits.limit.val limits.windowMs.val (usable limits) timestamp) where
  admitted := by
    rw [accepted_append, acceptedAt, if_pos hKey, Counter.call, ← h.admitted, ← grant_isSome]
    cases hGrant : (grant limits (enter limits.windowMs.val timestamp counter.window)).toOption with
    | none => simp
    | some granted => simp [hNow]
  counted := h.counted.call limits.limit.property.1 (Int.natCast_nonneg _) (h.past timestamp hReached)
  past t hLater := (h.past timestamp hReached).call.mono ((@Reached_append _ entries _ _ _ hLater).2 timestamp hNow)
  window t _ := .inl hEntries

theorem count_alone (limits : Limits) (key : JsString) (timestamp : Int) (window : Option Window) :
    count limits key timestamp (window.toList.map (Entry.mk key)) =
      ([⟨key, enter limits.windowMs.val timestamp window⟩], grant limits (enter limits.windowMs.val timestamp window)) := by
  have hRoom : ¬ limits.maxKeys.val ≤ 0 := Nat.not_le_of_lt limits.maxKeys.property.1
  cases window with
  | none =>
    have hFound : windowOf [] key = none := rfl
    simp only [Option.toList_none, List.map_nil, count, roomFor, hFound, List.length_nil, hRoom, and_false, if_false]
    rfl
  | some window =>
    have hFound : windowOf [⟨key, window⟩] key = some window := by simp [windowOf]
    simp only [Option.toList_some, List.map_cons, List.map_nil, count, hFound, roomFor_known hFound, reduceCtorEq,
      false_and, if_false]
    rw [Table.upsert_cons_pos (by simp)]

theorem Alone.allowed (h : Alone limits key state counter alone) (hAllowed : Allowed state call) : Allowed alone call where
  key := hAllowed.key
  clock t hNow := by
    intro earlier hEarlier
    rw [h.log] at hEarlier
    exact hAllowed.clock t hNow earlier (List.mem_filter.mp hEarlier).1

theorem Alone.seen (h : Alone limits key state counter alone) (hAllowed : Allowed state call) {result : Except JsError Grant}
    {after : List Entry} {next : Counter} (hOwn : own key [⟨call, result⟩] = [⟨call, result⟩])
    (hConsume : consume limits call.key call.now alone.entries = (after, result))
    (hAfter : after = next.window.toList.map (Entry.mk key)) :
    Alone limits key ⟨entries, state.log ++ [⟨call, result⟩]⟩ next ⟨after, alone.log ++ [⟨call, result⟩]⟩ := by
  have hLog : own key (state.log ++ [⟨call, result⟩]) = own key state.log ++ [⟨call, result⟩] := by
    rw [own, List.filter_append, ← own, ← own, hOwn]
  have hStep : (limiter limits).step alone call = some ⟨after, alone.log ++ [⟨call, result⟩]⟩ := by
    change some (serve limits alone call) = _
    rw [serve, hConsume]
  constructor
  · rw [hLog, List.map_append]
    exact h.run.next (h.allowed hAllowed) hStep
  · rw [hLog, h.log]
  · exact hAfter

end Outcomes

def Served (limits : Limits) (key : JsString) (state : State) : Prop :=
  ∃ counter alone, Tracks limits key state counter ∧ Alone limits key state counter alone

theorem served_initial : Served limits key (limiter limits).initial := by
  refine ⟨⟨none, []⟩, (limiter limits).initial, ?_, ?_⟩
  · refine ⟨rfl, counted_initial, fun t _ => ⟨fun a ha => absurd ha List.not_mem_nil, fun w hw => ?_⟩, fun t _ => .inl rfl⟩
    cases hw
  · exact ⟨.start, rfl, rfl⟩

theorem Served.refused_clock (h : Served limits key state) (hAllowed : Allowed state call)
    (hClock : checkClock call.now = .error (fail "Rate-limit clock is invalid.")) :
    Served limits key ⟨state.entries, state.log ++ [⟨call, .error (fail "Rate-limit clock is invalid.")⟩]⟩ := by
  obtain ⟨counter, alone, hTracks, hAlone⟩ := h
  have hNone : acceptedAt key ⟨call, .error (fail "Rate-limit clock is invalid.")⟩ = none := by
    rw [acceptedAt]
    split <;> rfl
  have hNext := @Tracks.unseen _ _ _ _ _ state.entries hTracks hNone fun t hReached =>
    hTracks.window t (Reached_append hReached).1
  by_cases hKey : call.key = key
  · refine ⟨counter, _, hNext, hAlone.seen hAllowed ?_ ?_ hAlone.entries⟩
    · simp [own, hKey, isCapacityRefusal, fail, keyCapacityExceeded]
    · exact consume_of_no_clock hAllowed.key hClock
  · exact ⟨counter, alone, hNext, hAlone.unseen (by simp [own, hKey])⟩

theorem Served.counted (h : Served limits key state) (hKept : Kept limits state) (hAllowed : Allowed state call)
    (hNow : call.now = some timestamp) (hClock : checkClock call.now = .ok timestamp) :
    Served limits key ⟨(count limits call.key timestamp state.entries).1,
      state.log ++ [⟨call, (count limits call.key timestamp state.entries).2⟩]⟩ := by
  obtain ⟨counter, alone, hTracks, hAlone⟩ := h
  have hReached := hAllowed.clock timestamp hNow
  have hStands := hTracks.window timestamp hReached
  have hRoom := hStands.roomFor hKept.nodup call.key
  cases count_cases limits call.key timestamp state.entries with
  | inl hRefused =>
    rw [hRefused.2]
    refine ⟨counter, alone, hTracks.unseen ?_ fun t hLater => ?_, hAlone.unseen ?_⟩
    · rw [acceptedAt]
      split <;> rfl
    · exact hRoom.later ((@Reached_append _ state.entries _ _ _ hLater).2 timestamp hNow)
    · simp [own, isCapacityRefusal]
  | inr hCounted =>
    rw [hCounted.2]
    by_cases hKey : call.key = key
    · subst hKey
      rw [hStands.enter_eq]
      refine ⟨_, _, hTracks.counted_call hNow hReached rfl ?_, hAlone.seen hAllowed ?_ ?_ rfl⟩
      · rw [windowOf_upsert ⟨call.key, _⟩, if_pos rfl]
      · simp [own, isCapacityRefusal_grant]
      · rw [consume_of_clock hAllowed.key hClock, hAlone.entries]
        exact count_alone limits call.key timestamp counter.window
    · refine ⟨counter, alone, hTracks.unseen ?_ fun t hLater => ?_, hAlone.unseen ?_⟩
      · rw [acceptedAt, if_neg hKey]
      · rw [windowOf_upsert ⟨call.key, _⟩, if_neg (Ne.symm hKey)]
        exact hRoom.later ((@Reached_append _ state.entries _ _ _ hLater).2 timestamp hNow)
      · simp [own, hKey]

theorem served_of_run (run : (limiter limits).Run Allowed calls state) (key : JsString) : Served limits key state := by
  induction run with
  | start => exact served_initial
  | @next _ s _ call before allowed taken ih =>
    cases taken
    have hKept := kept_of_run before
    cases checkClock_cases call.now with
    | inl hError =>
      rw [serve, consume_of_no_clock allowed.key hError]
      exact ih.refused_clock allowed hError
    | inr hOk =>
      obtain ⟨timestamp, hNow, hOk⟩ := hOk
      rw [serve, consume_of_clock allowed.key hOk]
      exact ih.counted hKept allowed hNow hOk

theorem Tracks.full (h : Tracks limits key state counter) {now : Option Int} {resetAt : String}
    (hAllowed : Allowed state ⟨key, now⟩)
    (hResult : (consume limits key now state.entries).2 = .error (rateLimitExceeded resetAt)) :
    ∃ timestamp, now = some timestamp ∧
      limits.limit.val ≤ ((accepted key state.log).filter fun a => decide (timestamp - a < limits.windowMs.val)).length := by
  have hOther : ∀ message : String, message.toList.take 5 ≠ "Rate ".toList → fail message ≠ rateLimitExceeded resetAt := by
    intro message hMessage hSame
    refine hMessage ?_
    have hChars := congrArg (fun e => e.message.toList.take 5) hSame
    simpa [rateLimitExceeded, fail] using hChars
  cases checkClock_cases now with
  | inl hError =>
    rw [@consume_of_no_clock _ ⟨key, now⟩ _ hAllowed.key hError] at hResult
    exact absurd (Except.error.inj hResult) (hOther _ (by decide))
  | inr hOk =>
    obtain ⟨timestamp, hNow, hOk⟩ := hOk
    refine ⟨timestamp, hNow, ?_⟩
    rw [@consume_of_clock _ ⟨key, now⟩ _ _ hAllowed.key hOk] at hResult
    have hStands := h.window timestamp (hAllowed.clock timestamp hNow)
    cases count_cases limits key timestamp state.entries with
    | inl hRefused =>
      rw [hRefused.2] at hResult
      exact absurd (Except.error.inj hResult) (hOther _ (by decide))
    | inr hCounted =>
      rw [hCounted.2, hStands.enter_eq] at hResult
      obtain ⟨hUsable, hOver⟩ := grant_refused hResult
      rw [← h.admitted]
      exact h.counted.full limits.limit.property.1 hUsable hOver

/-- Each key gets its share of every window, whatever the other keys do, and the entries stay within their bound. -/
theorem rate_limiting (limits : Limits) (calls : List Call) (state : State)
    (run : (limiter limits).Run Allowed calls state) :
    state.log.map Outcome.call = calls ∧ state.entries.length ≤ limits.maxKeys.val ∧
      ∀ key,
        (∃ groups, groups.flatten = accepted key state.log ∧ Grouped limits.limit.val limits.windowMs.val groups) ∧
        (∀ (i : Nat) (first last : Int), (accepted key state.log)[i]? = some first →
          (accepted key state.log)[i + 2 * limits.limit.val]? = some last → limits.windowMs.val ≤ last - first) ∧
        (∀ now resetAt, Allowed state ⟨key, now⟩ →
          (consume limits key now state.entries).2 = .error (rateLimitExceeded resetAt) →
          ∃ timestamp, now = some timestamp ∧ limits.limit.val ≤
            ((accepted key state.log).filter fun a => decide (timestamp - a < limits.windowMs.val)).length) ∧
        ∃ alone, (limiter limits).Run Allowed ((own key state.log).map Outcome.call) alone ∧
          alone.log = own key state.log := by
  refine ⟨log_calls run, (kept_of_run run).room, fun key => ?_⟩
  obtain ⟨counter, alone, hTracks, hAlone⟩ := served_of_run run key
  obtain ⟨groups, hAll, hGrouped⟩ := hTracks.counted.grouped
  rw [hTracks.admitted] at hAll
  refine ⟨⟨groups, hAll, hGrouped⟩, fun i first last hFirst hLast => ?_, ?_, alone, hAlone.run, hAlone.log⟩
  · have hSorted := hTracks.counted.sorted
    rw [hTracks.admitted, ← hAll] at hSorted
    rw [← hAll] at hFirst hLast
    exact hGrouped.span hSorted hFirst hLast
  · intro now resetAt hAllowed hResult
    exact hTracks.full hAllowed hResult

def isAllowed (state : State) (call : Call) : Bool :=
  isValidKey call.key && call.now.all fun timestamp =>
    state.log.all fun outcome => outcome.call.now.all fun earlier => decide (earlier ≤ timestamp)

theorem allowed_of_isAllowed (state : State) (call : Call) (h : isAllowed state call = true) : Allowed state call := by
  obtain ⟨hKey, hClock⟩ := Bool.and_eq_true_iff.mp h
  refine ⟨hKey, fun timestamp hNow outcome hOutcome earlier hEarlier => ?_⟩
  rw [hNow] at hClock
  have hTime := List.all_eq_true.mp hClock outcome hOutcome
  rw [hEarlier] at hTime
  exact of_decide_eq_true hTime

theorem one_sample_accepted : 1 ≤ 1 ∧ 1 ≤ 100000 := by decide

def sampleLimits : Limits := ⟨⟨2, by decide⟩, ⟨1000, by decide⟩, ⟨1, one_sample_accepted⟩⟩

def sampleCalls : List Call := [⟨[97], some 0⟩, ⟨[97], some 1⟩, ⟨[97], some 2⟩]

theorem sampleCalls_accepted : ((limiter sampleLimits).execIf isAllowed (limiter sampleLimits).initial sampleCalls).map
    (fun state => accepted [97] state.log) = some [0, 1] := by
  decide +kernel

theorem rate_limiting_sample : ∃ groups, groups.flatten = [0, 1] ∧ Grouped 2 1000 groups := by
  obtain ⟨state, hExec, hAccepted⟩ := Option.map_eq_some_iff.mp sampleCalls_accepted
  have run := @Machine.Run.execIf _ _ _ _ _ [] _ _ _ .start allowed_of_isAllowed hExec
  obtain ⟨groups, hAll, hGrouped⟩ := ((rate_limiting sampleLimits sampleCalls state run).2.2 [97]).1
  exact ⟨groups, hAll.trans hAccepted, hGrouped⟩

end GhostApi.TeamControl
