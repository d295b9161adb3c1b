import GhostApi.Approvals.Inbox
import GhostApi.Evidence.Text
import GhostApi.Lib.FixedWindow
import GhostApi.Lib.Machine
import GhostApi.Lib.Table

/-!
# The rate limiter of the team control plane

The limiter keeps one window for each key, in the order of a JavaScript Map.
Expired windows are dropped only when a new key finds no place. A refused call
is counted as well.
-/

namespace GhostApi.TeamControl

open Js Validation Transition
open FixedWindow (Window enter)
open Approvals (isoString)
open Evidence (sanitizeSecretString)
open Policy (JsString)

def fail (message : String) : JsError := ⟨"TeamControlPlaneError", message, none⟩

structure TeamRateLimitOptions where
  limit : Option JsNumber
  windowMs : Option JsNumber
  maxKeys : Option JsNumber

structure Limits where
  limit : Positive 10000
  windowMs : { n : Nat // 1000 ≤ n ∧ n ≤ 3600000 }
  maxKeys : Positive 100000

/-- A number of the options, when it is an integer within its bounds. -/
def within (low high fallback : Nat) (value : Option JsNumber) : Option { n : Nat // low ≤ n ∧ n ≤ high } :=
  match value.getD (.integer fallback) with
  | .integer z => if h : low ≤ z.toNat ∧ z.toNat ≤ high then some ⟨z.toNat, h⟩ else none
  | _ => none

def create (options : TeamRateLimitOptions) : Except JsError Limits :=
  match within 1 10000 60 options.limit, within 1000 3600000 60000 options.windowMs,
      within 1 100000 10000 options.maxKeys with
  | some limit, some windowMs, some maxKeys => .ok ⟨limit, windowMs, maxKeys⟩
  | _, _, _ => .error (fail "Rate limiter options are invalid.")

structure Entry where
  key : JsString
  window : Window
  deriving DecidableEq

structure Grant where
  remaining : Int
  resetAt : String
  deriving DecidableEq

def isValidKey (key : JsString) : Bool :=
  decide (1 ≤ key.length) && decide (key.length ≤ 128) && !key.any (· ≤ 0x1f) && sanitizeSecretString key == key

def checkKey (key : JsString) : Except JsError Unit :=
  failIf (isValidKey key = false) (fail "Rate-limit key is invalid.")

/-- The time of the clock; none is the one of an invalid date. -/
def checkClock (now : Option Int) : Except JsError Int := match now with
  | some timestamp => if 0 ≤ timestamp then .ok timestamp else .error (fail "Rate-limit clock is invalid.")
  | none => .error (fail "Rate-limit clock is invalid.")

def checked (key : JsString) (now : Option Int) : Except JsError Int := do
  checkKey key
  checkClock now

def isExpired (windowMs : Int) (timestamp : Int) (window : Window) : Bool :=
  decide (windowMs ≤ timestamp - window.startedAt)

def prune (windowMs : Int) (timestamp : Int) (entries : List Entry) : List Entry :=
  entries.filter fun entry => !isExpired windowMs timestamp entry.window

def windowOf (entries : List Entry) (key : JsString) : Option Window :=
  (entries.find? fun entry => decide (entry.key = key)).map Entry.window

def keyCapacityExceeded : JsError := fail "Rate-limit key capacity exceeded."

def rateLimitExceeded (resetAt : String) : JsError := fail ("Rate limit exceeded. Retry after " ++ resetAt ++ ".")

def grant (limits : Limits) (window : Window) : Except JsError Grant :=
  match isoString (window.startedAt + limits.windowMs.val) with
  | .error e => .error e
  | .ok resetAt =>
    if limits.limit.val < window.count then .error (rateLimitExceeded resetAt)
    else .ok ⟨limits.limit.val - window.count, resetAt⟩

def roomFor (limits : Limits) (key : JsString) (timestamp : Int) (entries : List Entry) : List Entry :=
  if windowOf entries key = none ∧ limits.maxKeys.val ≤ entries.length then
    prune limits.windowMs.val timestamp entries
  else entries

def count (limits : Limits) (key : JsString) (timestamp : Int) (entries : List Entry) :
    List Entry × Except JsError Grant :=
  let current := windowOf entries key
  let kept := roomFor limits key timestamp entries
  if current = none ∧ limits.maxKeys.val ≤ kept.length then (kept, .error keyCapacityExceeded)
  else
    let entry : Entry := ⟨key, enter limits.windowMs.val timestamp current⟩
    (Table.upsert (fun other => decide (other.key = entry.key)) entry kept, grant limits entry.window)

def consume (limits : Limits) (key : JsString) (now : Option Int) (entries : List Entry) :
    List Entry × Except JsError Grant :=
  match checked key now with
  | .error e => (entries, .error e)
  | .ok timestamp => count limits key timestamp entries

example : create ⟨none, none, none⟩ = .ok ⟨⟨60, by decide⟩, ⟨60000, by decide⟩, ⟨10000, by decide⟩⟩ := rfl

/-! ## Calls one after the other -/

structure Call where
  key : JsString
  now : Option Int
  deriving DecidableEq

structure Outcome where
  call : Call
  result : Except JsError Grant

structure State where
  entries : List Entry
  log : List Outcome

def serve (limits : Limits) (state : State) (call : Call) : State :=
  let (entries, result) := consume limits call.key call.now state.entries
  ⟨entries, state.log ++ [⟨call, result⟩]⟩

def limiter (limits : Limits) : Machine State Call where
  initial := ⟨[], []⟩
  step state call := some (serve limits state call)

def State.Reached (state : State) (timestamp : Int) : Prop :=
  ∀ outcome ∈ state.log, ∀ earlier, outcome.call.now = some earlier → earlier ≤ timestamp

/-- A call with a valid key, at a clock that does not go back. -/
structure Allowed (state : State) (call : Call) : Prop where
  key : isValidKey call.key = true
  clock : ∀ timestamp, call.now = some timestamp → state.Reached timestamp

def acceptedAt (key : JsString) (outcome : Outcome) : Option Int :=
  if outcome.call.key = key then outcome.result.toOption.bind fun _ => outcome.call.now else none

def accepted (key : JsString) (log : List Outcome) : List Int := log.filterMap (acceptedAt key)

def isCapacityRefusal (result : Except JsError Grant) : Bool := match result with
  | .error e => decide (e = keyCapacityExceeded)
  | .ok _ => false

/-- The outcomes with a key, without the calls that found no place. -/
def own (key : JsString) (log : List Outcome) : List Outcome :=
  log.filter fun outcome => decide (outcome.call.key = key) && !isCapacityRefusal outcome.result

/-! ## One call -/

section Lemmas

variable {limits : Limits} {key other : JsString} {timestamp : Int} {entries : List Entry}

theorem roomFor_known {window : Window} (h : windowOf entries key = some window) :
    roomFor limits key timestamp entries = entries := by
  rw [roomFor, if_neg]
  rintro ⟨hNone, _⟩
  rw [h] at hNone
  cases hNone

theorem mem_of_mem_roomFor {entry : Entry} (h : entry ∈ roomFor limits key timestamp entries) : entry ∈ entries := by
  rw [roomFor] at h
  split at h
  · exact (List.mem_filter.mp h).1
  · exact h

theorem nodup_roomFor (h : (entries.map Entry.key).Nodup) :
    ((roomFor limits key timestamp entries).map Entry.key).Nodup := by
  rw [roomFor]
  split
  · exact h.sublist (List.filter_sublist.map Entry.key)
  · exact h

theorem length_roomFor_le : (roomFor limits key timestamp entries).length ≤ entries.length := by
  rw [roomFor]
  split
  · exact List.length_filter_le _ _
  · exact Nat.le_refl _

theorem windowOf_eq_some_iff (hNodup : (entries.map Entry.key).Nodup) {window : Window} :
    windowOf entries key = some window ↔ ⟨key, window⟩ ∈ entries := by
  rw [windowOf, Option.map_eq_some_iff]
  constructor
  · rintro ⟨entry, hFind, rfl⟩
    have hKey : entry.key = key := by simpa using List.find?_some hFind
    subst hKey
    exact List.mem_of_find?_eq_some hFind
  · intro hMem
    cases hFind : entries.find? fun entry => decide (entry.key = key) with
    | none => simpa using List.find?_eq_none.mp hFind _ hMem
    | some entry =>
      have hKey : entry.key = key := by simpa using List.find?_some hFind
      have hSame := List.inj_on_of_nodup_map hNodup (List.mem_of_find?_eq_some hFind) hMem hKey
      exact ⟨entry, rfl, congrArg Entry.window hSame⟩

theorem windowOf_roomFor (hNodup : (entries.map Entry.key).Nodup) (key other : JsString) :
    windowOf (roomFor limits key timestamp entries) other = windowOf entries other ∨
      windowOf (roomFor limits key timestamp entries) other = none ∧
        ∀ window, windowOf entries other = some window → (limits.windowMs.val : Int) ≤ timestamp - window.startedAt := by
  have hKept := @nodup_roomFor limits key timestamp _ hNodup
  cases hRoom : windowOf (roomFor limits key timestamp entries) other with
  | some window =>
    refine .inl (Eq.symm ((windowOf_eq_some_iff hNodup).mpr ?_))
    exact mem_of_mem_roomFor ((windowOf_eq_some_iff hKept).mp hRoom)
  | none =>
    cases hFound : windowOf entries other with
    | none => exact .inl rfl
    | some window =>
      refine .inr ⟨rfl, fun window' hWindow => ?_⟩
      cases hWindow
      have hMem := (windowOf_eq_some_iff hNodup).mp hFound
      rw [roomFor] at hRoom
      split at hRoom
      · by_contra hLive
        have hStays : (⟨other, window⟩ : Entry) ∈ prune limits.windowMs.val timestamp entries :=
          List.mem_filter.mpr ⟨hMem, by simpa [isExpired] using hLive⟩
        have hNodupPruned : ((prune limits.windowMs.val timestamp entries).map Entry.key).Nodup :=
          hNodup.sublist (List.filter_sublist.map Entry.key)
        rw [(windowOf_eq_some_iff hNodupPruned).mpr hStays] at hRoom
        cases hRoom
      · rw [hFound] at hRoom
        cases hRoom

theorem windowOf_upsert (entry : Entry) (other : JsString) (entries : List Entry) :
    windowOf (Table.upsert (fun other => decide (other.key = entry.key)) entry entries) other =
      if other = entry.key then some entry.window else windowOf entries other := by
  split
  · rename_i hSame
    subst hSame
    rw [windowOf, Table.find?_upsert_self (by simp)]
    rfl
  · rename_i hOther
    rw [windowOf, Table.find?_upsert_other (by simpa using Ne.symm hOther), windowOf]
    intro entry' hKey
    rw [decide_eq_true_eq] at hKey
    simpa [hKey] using Ne.symm hOther

theorem count_cases (limits : Limits) (key : JsString) (timestamp : Int) (entries : List Entry) :
    windowOf entries key = none ∧
        count limits key timestamp entries = (roomFor limits key timestamp entries, .error keyCapacityExceeded) ∨
      (windowOf entries key = none → (roomFor limits key timestamp entries).length < limits.maxKeys.val) ∧
        count limits key timestamp entries =
          (Table.upsert (fun other => decide (other.key = key))
            ⟨key, enter limits.windowMs.val timestamp (windowOf entries key)⟩ (roomFor limits key timestamp entries),
          grant limits (enter limits.windowMs.val timestamp (windowOf entries key))) := by
  by_cases hFull : windowOf entries key = none ∧ limits.maxKeys.val ≤ (roomFor limits key timestamp entries).length
  · exact .inl ⟨hFull.1, if_pos hFull⟩
  · refine .inr ⟨fun hNone => ?_, if_neg hFull⟩
    rw [not_and] at hFull
    exact Nat.lt_of_not_le (hFull hNone)

end Lemmas

end GhostApi.TeamControl
