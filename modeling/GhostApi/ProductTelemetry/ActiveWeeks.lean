import GhostApi.Lib.Machine
import GhostApi.ProductTelemetry.Snapshot
import GhostApi.Scenarios.Validity
import Mathlib.Data.Finset.Sort

/-!
# The active weeks over runs of calls

A snapshot that was written is read as it is. From call to call the file
keeps the newest eight weeks of the events that were recorded since the
telemetry was last disabled.
-/

namespace GhostApi.ProductTelemetry

open Js Js.Date Validation Effect Transition Recent

/-! ## Reading what was written -/

structure ProductTelemetrySnapshot.Sound (snapshot : ProductTelemetrySnapshot) : Prop where
  counters : ∀ event, snapshot.counters event ≤ MAX_SAFE_INTEGER
  few : snapshot.activeWeeks.length ≤ MAX_ACTIVE_WEEKS
  weeks : ∀ week ∈ snapshot.activeWeeks, isWeekText week = true
  sorted : sortNames snapshot.activeWeeks.eraseDups = snapshot.activeWeeks
  first : ∀ timestamp, snapshot.firstActivationAt = some timestamp → isWrittenTimestamp timestamp = true
  last : ∀ timestamp, snapshot.lastActivityAt = some timestamp → isWrittenTimestamp timestamp = true
  order : isAfter snapshot.firstActivationAt snapshot.lastActivityAt = false

theorem parseCounters_written {counters : ProductTelemetryEvent → Nat} (h : ∀ event, counters event ≤ MAX_SAFE_INTEGER) :
    parseCounters (telemetryEvents.map fun event => (event.name, .number (counters event))) = .ok counters := by
  have hCount : ∀ event ∈ telemetryEvents,
      parseCount (telemetryEvents.map fun event => (event.name, .number (counters event))) event = pure (event, counters event) := by
    intro event _
    have hRange : (0 : Int) ≤ counters event ∧ (counters event : Int) ≤ MAX_SAFE_INTEGER := by
      have hSafe := h event
      omega
    have hFound : (telemetryEvents.map fun event => (event.name, Json.number (counters event))).lookup event.name =
        some (.number (counters event)) := by cases event <;> rfl
    rw [parseCount, hFound]
    exact if_pos hRange
  rw [parseCounters, mapM_eq_pure hCount]
  refine congrArg Except.ok (funext fun event => ?_)
  cases event <;> rfl

theorem parseWeeks_written {weeks : List String} (hFew : weeks.length ≤ MAX_ACTIVE_WEEKS)
    (hWeeks : ∀ week ∈ weeks, isWeekText week = true) : parseWeeks (some (.array (weeks.map .string))) = .ok weeks := by
  have hItems : (weeks.map Json.string).mapM parseWeek = some weeks := by
    have hWeek : ∀ week ∈ weeks, (parseWeek ∘ Json.string) week = pure (id week) := fun week hMem => if_pos (hWeeks week hMem)
    rw [List.mapM_map]
    rw [mapM_eq_pure hWeek, List.map_id]
    rfl
  rw [parseWeeks, if_neg (by rw [List.length_map]; omega), hItems]

theorem parseTimestamp_written {timestamp : Option String}
    (h : ∀ value, timestamp = some value → isWrittenTimestamp value = true) :
    parseTimestamp (timestamp.map .string) = .ok timestamp := by
  cases timestamp with
  | none => rfl
  | some value => exact if_pos (h value rfl)

theorem lookup_written (snapshot : ProductTelemetrySnapshot) : ∃ fields, snapshot.toJson = .object fields ∧
    assertExactKeys fields ["schemaVersion", "enabled", "counters", "activeWeeks", "firstActivationAt", "lastActivityAt"] = .ok () ∧
    parseEnabled fields = .ok snapshot.enabled ∧
    fields.lookup "counters" =
      some (.object (telemetryEvents.map fun event => (event.name, .number (snapshot.counters event)))) ∧
    fields.lookup "activeWeeks" = some (.array (snapshot.activeWeeks.map .string)) ∧
    fields.lookup "firstActivationAt" = snapshot.firstActivationAt.map .string ∧
    fields.lookup "lastActivityAt" = snapshot.lastActivityAt.map .string := by
  obtain ⟨enabled, counters, activeWeeks, firstActivationAt, lastActivityAt⟩ := snapshot
  refine ⟨_, rfl, ?_⟩
  cases firstActivationAt <;> cases lastActivityAt <;> exact ⟨rfl, rfl, rfl, rfl, rfl, rfl⟩

theorem parseSnapshot_toJson {snapshot : ProductTelemetrySnapshot} (h : snapshot.Sound) :
    parseSnapshot snapshot.toJson = .ok snapshot := by
  obtain ⟨fields, hObject, hKeys, hEnabled, hCounters, hWeeks, hFirst, hLast⟩ := lookup_written snapshot
  have hNames : assertExactKeys (telemetryEvents.map fun event => (event.name, Json.number (snapshot.counters event)))
      (telemetryEvents.map ProductTelemetryEvent.name) = .ok () := rfl
  have hActive : parseActiveWeeks (some (.array (snapshot.activeWeeks.map .string))) = .ok snapshot.activeWeeks := by
    rw [parseActiveWeeks, parseWeeks_written h.few h.weeks, ok_bind]
    simp only [h.sorted]
    rw [failIf_of_not (not_not.mpr rfl)]
    rfl
  have hOrder : ¬isAfter snapshot.firstActivationAt snapshot.lastActivityAt = true := by simp [h.order]
  rw [parseSnapshot, hObject, jsonObject, ok_bind, hKeys, ok_bind, hEnabled, ok_bind, hCounters, jsonObject, ok_bind, hNames,
    ok_bind, parseCounters_written h.counters, ok_bind, hWeeks, hActive, ok_bind, hFirst, parseTimestamp_written h.first,
    ok_bind, hLast, parseTimestamp_written h.last, ok_bind, failIf_of_not hOrder, ok_bind]
  rfl

/-! ## The texts of a call -/

theorem isWeekText_isoWeek {ms : Int} (h : InYears ms) : isWeekText (isoWeek ms) = true := by
  have hYear := year_range (isWeek_weekOf h)
  have hNumber := number_range (weekOf ms)
  have hTemplate : "dddd-Wdd".toList = List.replicate 4 'd' ++ (['-', 'W'] ++ List.replicate 2 'd') := by decide
  have hMark : "-W".toList = ['-', 'W'] := by decide
  rw [isoWeek_eq h, isWeekText, weekText, hTemplate, String.toList_append, String.toList_append, hMark, List.append_assoc]
  refine fits_append (fits_digits (digits_length (by decide) (by omega)) fun _ => isDigit_digits) ?_
  exact fits_append (by decide) (fits_digits (digits_length (by decide) (by omega)) fun _ => isDigit_digits)

theorem parseDate_toISOString {ms : Int} (h : InYears ms) : parseDate (toISOString ms) = some ms := by
  have hTimestamp := isTimestamp_toISOString h
  have hSmall : ms.natAbs ≤ 8640000000000000 := natAbs_le_of_isTimestamp hTimestamp
  obtain ⟨c, cs, hChars, hDigit⟩ : ∃ c cs, (toISOString ms).toList = c :: cs ∧ isDigit c = true := by
    obtain ⟨hLength, _⟩ := isTimestamp_chars hTimestamp
    rw [isTimestamp, Bool.and_eq_true] at hTimestamp
    cases hText : (toISOString ms).toList with
    | nil =>
      rw [hText] at hLength
      cases hLength
    | cons c cs =>
      refine ⟨c, cs, rfl, ?_⟩
      have hFits := hTimestamp.1
      rw [hText, show isoTemplate = 'd' :: isoTemplate.tail by decide, fits, Bool.and_eq_true, List.zip_cons_cons,
        List.all_cons, Bool.and_eq_true] at hFits
      exact hFits.2.1
  have hPlus : c ≠ '+' := by
    rintro rfl
    cases hDigit
  have hMinus : c ≠ '-' := by
    rintro rfl
    cases hDigit
  rw [parseDate, hChars]
  simp only [if_neg hPlus, if_neg hMinus, parse_toISOString hTimestamp]
  rw [Option.filter_some, if_pos (decide_eq_true hSmall)]

theorem isWrittenTimestamp_toISOString {ms : Int} (h : InYears ms) : isWrittenTimestamp (toISOString ms) = true := by
  rw [isWrittenTimestamp, parseDate_toISOString h]
  exact beq_self_eq_true _

/-! ## The order of timestamps -/

theorem isAfter_some {first last : String} : isAfter (some first) (some last) = false ↔ Json.keyLe first last = true := by
  rw [isAfter, Bool.not_eq_false']

theorem isAfter_self (timestamp : String) : isAfter (some timestamp) (some timestamp) = false := by
  have hTotal := Json.keyLe_total timestamp timestamp
  rw [Bool.or_self] at hTotal
  exact isAfter_some.mpr hTotal

theorem isAfter_trans {first : Option String} {last next : String} (h : isAfter first (some last) = false)
    (hNext : isAfter (some last) (some next) = false) : isAfter first (some next) = false := by
  cases first with
  | none => rfl
  | some first => exact isAfter_some.mpr (Json.keyLe_trans _ _ _ (isAfter_some.mp h) (isAfter_some.mp hNext))

/-! ## The list of weeks -/

section Weeks

variable {weeks : List Int}

def textOf (week : Int) : String := isoWeek (thursdayOf week)

theorem pairwise_texts (hIncreasing : weeks.Pairwise (· < ·)) (hWeeks : ∀ week ∈ weeks, IsWeek week) :
    (weeks.map textOf).Pairwise (fun a b => Json.keyLe a b = true) ∧ (weeks.map textOf).Nodup := by
  have hOrder : ∀ {week week'}, week ∈ weeks → week' ∈ weeks → week < week' →
      Json.keyLe (textOf week) (textOf week') = true ∧ textOf week ≠ textOf week' := by
    intro week week' hMem hMem' hLess
    refine ⟨(isoWeek_keyLe (hWeeks week hMem) (hWeeks week' hMem')).mpr (Int.le_of_lt hLess), fun hSame => ?_⟩
    have hRefl : Json.keyLe (textOf week) (textOf week) = true :=
      (isoWeek_keyLe (hWeeks week hMem) (hWeeks week hMem)).mpr (Int.le_refl week)
    nth_rewrite 1 [hSame] at hRefl
    have hBack : week' ≤ week := (isoWeek_keyLe (hWeeks week' hMem') (hWeeks week hMem)).mp hRefl
    omega
  constructor
  · rw [List.pairwise_map]
    exact hIncreasing.imp_of_mem fun hMem hMem' hLess => (hOrder hMem hMem' hLess).1
  · rw [List.Nodup, List.pairwise_map]
    exact hIncreasing.imp_of_mem fun hMem hMem' hLess => (hOrder hMem hMem' hLess).2

theorem sortNames_texts {names : List String} (hIncreasing : weeks.Pairwise (· < ·)) (hWeeks : ∀ week ∈ weeks, IsWeek week)
    (hNames : ∀ name, name ∈ names ↔ name ∈ weeks.map textOf) : sortNames names.eraseDups = weeks.map textOf := by
  obtain ⟨hSorted, hNodup⟩ := pairwise_texts hIncreasing hWeeks
  have hPerm : names.eraseDups.Perm (weeks.map textOf) := by
    rw [List.perm_ext_iff_of_nodup (Scenarios.eraseDups_nodup names) hNodup]
    intro name
    rw [List.mem_eraseDups, hNames]
  rw [sortNames_congr hPerm, sortNames]
  exact List.mergeSort_of_pairwise hSorted

end Weeks

/-! ## Runs -/

inductive Call
  | setEnabled (enabled : Bool)
  | record (event : String) (date : Option Int)

def Call.run : Call → Option Json → Outcome
  | .setEnabled enabled, file => setProductTelemetryEnabled enabled file
  | .record event date, file => recordProductTelemetry event date file

/-- The clock is within the years 1970 to 9999. -/
def Call.Timely : Call → Prop
  | .record _ (some now) => InYears now
  | _ => True

/-- The file with the times of the events that were recorded since the telemetry was last disabled. -/
structure Log where
  file : Option Json
  times : List Int

def Call.times : Call → ProductTelemetrySnapshot → List Int → List Int
  | .setEnabled enabled, _, times => if enabled then times else []
  | .record _ (some now), snapshot, times => if snapshot.enabled then times ++ [now] else times
  | .record _ none, _, times => times

def Log.after (log : Log) (call : Call) : Log := match call.run log.file with
  | .ok (snapshot, file) => ⟨file, call.times snapshot log.times⟩
  | .error _ => log

def telemetry : Machine Log Call where
  initial := ⟨none, []⟩
  step log call := some (log.after call)

def weeksOf (times : List Int) : Finset Int := (times.map weekOf).toFinset

theorem weeksOf_append (times : List Int) (now : Int) : weeksOf (times ++ [now]) = insert (weekOf now) (weeksOf times) := by
  ext week
  simp [weeksOf]

structure Tracks (log : Log) (snapshot : ProductTelemetrySnapshot) (weeks : List Int) : Prop where
  read : readSnapshot log.file = .ok snapshot
  file : log.file = none ∧ snapshot.enabled = false ∨ log.file = some snapshot.toJson
  sound : snapshot.Sound
  active : snapshot.lastActivityAt = none → snapshot.firstActivationAt = none
  timely : ∀ ms ∈ log.times, InYears ms
  newest : Newest MAX_ACTIVE_WEEKS (weeksOf log.times) weeks
  texts : snapshot.activeWeeks = weeks.map textOf

theorem tracks_initial : Tracks ⟨none, []⟩ emptySnapshot [] where
  read := rfl
  file := .inl ⟨rfl, rfl⟩
  sound := {
    counters := fun _ => Nat.zero_le _
    few := Nat.zero_le _
    weeks := fun _ hMem => absurd hMem List.not_mem_nil
    sorted := by simp [emptySnapshot, sortNames]
    first := fun _ hSome => absurd hSome (Option.some_ne_none _).symm
    last := fun _ hSome => absurd hSome (Option.some_ne_none _).symm
    order := rfl }
  active _ := rfl
  timely _ hMem := absurd hMem List.not_mem_nil
  newest := newest_empty
  texts := rfl

section Steps

variable {log : Log} {snapshot : ProductTelemetrySnapshot} {weeks : List Int} {event : ProductTelemetryEvent} {now : Int}

theorem Tracks.isWeek (h : Tracks log snapshot weeks) {week : Int} (hMem : week ∈ weeks) : IsWeek week := by
  have hAll := h.newest.mem week hMem
  rw [weeksOf, List.mem_toFinset, List.mem_map] at hAll
  obtain ⟨ms, hTime, rfl⟩ := hAll
  exact isWeek_weekOf (h.timely ms hTime)

theorem Tracks.enabled (h : Tracks log snapshot weeks) :
    Tracks ⟨some { snapshot with enabled := true }.toJson, log.times⟩ { snapshot with enabled := true } weeks := by
  have hSound : { snapshot with enabled := true }.Sound :=
    ⟨h.sound.counters, h.sound.few, h.sound.weeks, h.sound.sorted, h.sound.first, h.sound.last, h.sound.order⟩
  exact ⟨parseSnapshot_toJson hSound, .inr rfl, hSound, h.active, h.timely, h.newest, h.texts⟩

def merged (weeks : List Int) (now : Int) : List Int := (insert (weekOf now) weeks.toFinset).sort

theorem mem_merged {week : Int} : week ∈ merged weeks now ↔ week = weekOf now ∨ week ∈ weeks := by
  rw [merged, Finset.mem_sort, Finset.mem_insert, List.mem_toFinset]

theorem merged_increasing : (merged weeks now).Pairwise (· < ·) := (Finset.sortedLT_sort _).pairwise

theorem recorded_weeks (h : Tracks log snapshot weeks) (hNow : InYears now) :
    (recorded snapshot event now).activeWeeks = (lastOf MAX_ACTIVE_WEEKS (merged weeks now)).map textOf := by
  have hWeeks : ∀ week ∈ merged weeks now, IsWeek week := by
    intro week hMem
    cases mem_merged.mp hMem with
    | inl hNew => exact hNew ▸ isWeek_weekOf hNow
    | inr hOld => exact h.isWeek hOld
  have hNames : ∀ name, name ∈ snapshot.activeWeeks ++ [isoWeek now] ↔ name ∈ (merged weeks now).map textOf := by
    intro name
    rw [h.texts, isoWeek_thursdayOf hNow, List.mem_append, List.mem_singleton]
    simp only [List.mem_map, mem_merged]
    constructor
    · rintro (⟨week, hMem, rfl⟩ | rfl)
      · exact ⟨week, .inr hMem, rfl⟩
      · exact ⟨weekOf now, .inl rfl, rfl⟩
    · rintro ⟨week, rfl | hMem, rfl⟩
      · exact .inr rfl
      · exact .inl ⟨week, hMem, rfl⟩
  change lastOf MAX_ACTIVE_WEEKS (sortNames (snapshot.activeWeeks ++ [isoWeek now]).eraseDups) = _
  rw [sortNames_texts merged_increasing hWeeks hNames, lastOf_map]

theorem recorded_sound (h : Tracks log snapshot weeks) (hNow : InYears now)
    (hClock : isAfter snapshot.lastActivityAt (some (toISOString now)) = false)
    (hCount : snapshot.counters event ≠ MAX_SAFE_INTEGER) : (recorded snapshot event now).Sound := by
  have hActive := @recorded_weeks _ _ _ event _ h hNow
  have hNewest := h.newest.inserted merged_increasing fun _ => @mem_merged _ now _
  have hWeeks : ∀ week ∈ lastOf MAX_ACTIVE_WEEKS (merged weeks now), IsWeek week := by
    intro week hMem
    cases mem_merged.mp (List.mem_of_mem_drop hMem) with
    | inl hNew => exact hNew ▸ isWeek_weekOf hNow
    | inr hOld => exact h.isWeek hOld
  have hWritten : isWrittenTimestamp (toISOString now) = true := isWrittenTimestamp_toISOString hNow
  constructor
  · intro other
    change Function.update snapshot.counters event (snapshot.counters event + 1) other ≤ MAX_SAFE_INTEGER
    by_cases hSame : other = event
    · subst hSame
      have hSafe := h.sound.counters other
      rw [Function.update_self]
      omega
    · rw [Function.update_of_ne hSame]
      exact h.sound.counters other
  · rw [hActive, List.length_map, hNewest.length]
    omega
  · rw [hActive]
    intro text hMem
    obtain ⟨week, hWeek, rfl⟩ := List.mem_map.mp hMem
    exact isWeekText_isoWeek (inYears_thursdayOf (hWeeks week hWeek))
  · rw [hActive]
    exact sortNames_texts hNewest.increasing hWeeks fun _ => Iff.rfl
  · intro timestamp hFirst
    change (if _ then some (toISOString now) else snapshot.firstActivationAt) = some timestamp at hFirst
    split at hFirst
    · cases hFirst
      exact hWritten
    · exact h.sound.first timestamp hFirst
  · intro timestamp hLast
    cases hLast
    exact hWritten
  · change isAfter (if _ then some (toISOString now) else snapshot.firstActivationAt) (some (toISOString now)) = false
    split
    · exact isAfter_self _
    · cases hLast : snapshot.lastActivityAt with
      | none =>
        rw [h.active hLast]
        rfl
      | some last =>
        have hOrder := h.sound.order
        rw [hLast] at hOrder hClock
        exact isAfter_trans hOrder hClock

theorem Tracks.recorded (h : Tracks log snapshot weeks) (hNow : InYears now)
    (hClock : isAfter snapshot.lastActivityAt (some (toISOString now)) = false)
    (hCount : snapshot.counters event ≠ MAX_SAFE_INTEGER) :
    Tracks ⟨some (recorded snapshot event now).toJson, log.times ++ [now]⟩ (recorded snapshot event now)
      (lastOf MAX_ACTIVE_WEEKS (merged weeks now)) := by
  have hSound := recorded_sound h hNow hClock hCount
  refine ⟨parseSnapshot_toJson hSound, .inr rfl, hSound, ?_, ?_, ?_, recorded_weeks h hNow⟩
  · intro hNone
    cases hNone
  · exact List.forall_mem_append.mpr ⟨h.timely, List.forall_mem_singleton.mpr hNow⟩
  · change Newest _ (weeksOf (log.times ++ [now])) _
    rw [weeksOf_append]
    exact h.newest.inserted merged_increasing fun _ => mem_merged

theorem Tracks.call (h : Tracks log snapshot weeks) {call : Call} (hTimely : call.Timely) {next : ProductTelemetrySnapshot}
    {file : Option Json} (hRun : call.run log.file = .ok (next, file)) :
    ∃ weeks', Tracks ⟨file, call.times next log.times⟩ next weeks' := by
  cases call with
  | setEnabled enabled =>
    cases enabled with
    | false =>
      cases hRun
      exact ⟨[], tracks_initial⟩
    | true =>
      rw [Call.run, setProductTelemetryEnabled, if_pos rfl, h.read, ok_bind] at hRun
      cases hRun
      exact ⟨weeks, h.enabled⟩
  | record value date =>
    change recordProductTelemetry value date log.file = _ at hRun
    unfold recordProductTelemetry at hRun
    cases hEvent : telemetryEvent value with
    | none =>
      rw [hEvent] at hRun
      cases hRun
    | some event =>
      rw [hEvent] at hRun
      cases date with
      | none => cases hRun
      | some now =>
        dsimp only at hRun
        rw [h.read, ok_bind] at hRun
        split at hRun
        · obtain ⟨_, hClock, hRun⟩ := bind_eq_ok hRun
          obtain ⟨_, hCount, hRun⟩ := bind_eq_ok hRun
          cases hRun
          refine ⟨_, h.recorded hTimely ?_ (failIf_eq_ok.mp hCount)⟩
          simpa using failIf_eq_ok.mp hClock
        · rename_i hDisabled
          cases hRun
          refine ⟨weeks, ?_⟩
          rw [Call.times, if_neg hDisabled]
          exact h

theorem Tracks.after (h : Tracks log snapshot weeks) {call : Call} (hTimely : call.Timely) :
    ∃ next weeks', Tracks (log.after call) next weeks' := by
  rw [Log.after]
  split
  · rename_i next file hRun
    obtain ⟨weeks', hNext⟩ := h.call hTimely hRun
    exact ⟨next, weeks', hNext⟩
  · exact ⟨snapshot, weeks, h⟩

end Steps

/-- Along every run of calls within the years 1970 to 9999 a time has the text of its ISO week, a snapshot that was
written is read as it is, and the active weeks are the newest of those with an event. -/
theorem activeWeeks_newest {calls : List Call} {log : Log} (run : telemetry.Run (fun _ call => call.Timely) calls log) :
    (∀ ms, InYears ms → isoWeek ms = textOf (weekOf ms) ∧
      ∃ year number, IsIsoWeek (ms / millisecondsPerDay) year number ∧ isoWeek ms = weekText year number) ∧
    (∀ call next written, Call.Timely call → call.run log.file = .ok (next, some written) →
      written = next.toJson ∧ readSnapshot (some written) = .ok next) ∧
    ∃ snapshot weeks, readSnapshot log.file = .ok snapshot ∧ Newest MAX_ACTIVE_WEEKS (weeksOf log.times) weeks ∧
      snapshot.activeWeeks = weeks.map textOf := by
  obtain ⟨snapshot, weeks, h⟩ : ∃ snapshot weeks, Tracks log snapshot weeks := by
    refine run.invariant (I := fun log => ∃ snapshot weeks, Tracks log snapshot weeks) ⟨_, _, tracks_initial⟩ ?_
    rintro log call _ ⟨snapshot, weeks, h⟩ hTimely hStep
    cases hStep
    exact h.after hTimely
  refine ⟨?_, ?_, snapshot, weeks, h.read, h.newest, h.texts⟩
  · intro ms hYears
    exact ⟨isoWeek_thursdayOf hYears, _, _, isIsoWeek_weekOf ms, isoWeek_eq hYears⟩
  · intro call next written hTimely hRun
    obtain ⟨_, hNext⟩ := h.call hTimely hRun
    refine ⟨?_, hNext.read⟩
    cases hNext.file with
    | inl hNone => exact absurd hNone.1 (Option.some_ne_none written)
    | inr hWritten => exact Option.some.inj hWritten

theorem activeWeeks_newest_first : ∃ snapshot weeks,
    readSnapshot ((telemetry.initial.after (.setEnabled true)).after (.record "init_completed" (some 0))).file = .ok snapshot ∧
    Newest MAX_ACTIVE_WEEKS
      (weeksOf ((telemetry.initial.after (.setEnabled true)).after (.record "init_completed" (some 0))).times) weeks ∧
    snapshot.activeWeeks = weeks.map textOf := by
  have hEnabled : telemetry.Run (fun _ call => call.Timely) [.setEnabled true] (telemetry.initial.after (.setEnabled true)) :=
    Machine.Run.start.next trivial rfl
  have hTimely : (Call.record "init_completed" (some 0)).Timely := by
    change InYears 0
    rw [InYears]
    omega
  exact (activeWeeks_newest (hEnabled.next hTimely rfl)).2.2

end GhostApi.ProductTelemetry
