import GhostApi.Js.JsonSize
import GhostApi.Lib.Mutation

/-!
# A state kept in one JSON file

Every local store reads its file under the lock, runs one operation on the
state, validates the result and writes it. The byte limit is checked when the
file is read.
-/

namespace GhostApi.Storage

open Js Effect

structure StoreFormat (σ : Type) where
  empty : σ
  toJson : σ → Json
  maxBytes : Nat
  validate : σ → Except JsError σ
  oversized : JsError
  invalidClock : JsError

namespace StoreFormat

variable {σ α : Type}

def bytes (format : StoreFormat σ) (state : σ) : Nat := (Json.fileText (format.toJson state)).utf8ByteSize

/-- The stored state; none when the file does not exist. -/
def read (format : StoreFormat σ) : Option σ → Except JsError σ
  | none => .ok format.empty
  | some state => if format.maxBytes < format.bytes state then .error format.oversized else format.validate state

/-- A clock reading: none is no valid date, and a date lies within 10 ^ 8 days of the epoch. -/
def timestamp (format : StoreFormat σ) (clock : Option Int) : Except JsError Int := match clock with
  | some ms => if ms.natAbs ≤ 8640000000000000 then .ok ms else .error format.invalidClock
  | none => .error format.invalidClock

/-- What an operation returns and the state that it writes. -/
def mutate (format : StoreFormat σ) (operation : Int → Mutation σ JsError α) (clock : Option Int)
    (store : Option σ) : Except JsError (α × σ) := do
  let state ← format.read store
  let now ← format.timestamp clock
  match operation now state with
  | (.error e, _) => throw e
  | (.ok result, state) => return (result, ← format.validate state)

/-- An operation that does not start with a clock reading. -/
def update (format : StoreFormat σ) (operation : Mutation σ JsError α) (store : Option σ) : Except JsError (α × σ) := do
  let state ← format.read store
  match operation state with
  | (.error e, _) => throw e
  | (.ok result, state) => return (result, ← format.validate state)

/-- The validator of a format returns the states that it accepts. -/
def Accepts (format : StoreFormat σ) (valid : σ → Prop) : Prop :=
  ∀ state state', format.validate state = .ok state' ↔ valid state ∧ state = state'

variable {format : StoreFormat σ} {valid : σ → Prop}

theorem Accepts.read_ok (h : format.Accepts valid) {store : Option σ} {state : σ}
    (hRead : format.read store = .ok state) : state = store.getD format.empty := by
  cases store with
  | none =>
    cases hRead
    rfl
  | some stored =>
    rw [read] at hRead
    split at hRead
    · cases hRead
    · exact ((h _ _).mp hRead).2.symm

theorem Accepts.mutate_ok (h : format.Accepts valid) {operation : Int → Mutation σ JsError α} {clock : Option Int}
    {store : Option σ} {a : α} {state : σ} (hMutate : format.mutate operation clock store = .ok (a, state)) :
    ∃ now, format.timestamp clock = .ok now ∧ operation now (store.getD format.empty) = (.ok a, state) ∧
      valid state := by
  obtain ⟨before, hRead, hMutate⟩ := bind_eq_ok hMutate
  obtain ⟨now, hNow, hMutate⟩ := bind_eq_ok hMutate
  rw [h.read_ok hRead] at hMutate
  refine ⟨now, hNow, ?_⟩
  split at hMutate
  · cases hMutate
  · rename_i result after hRun
    obtain ⟨validated, hValidated, hPure⟩ := bind_eq_ok hMutate
    obtain ⟨hValid, rfl⟩ := (h _ _).mp hValidated
    cases hPure
    exact ⟨hRun, hValid⟩

theorem Accepts.mutate_of (h : format.Accepts valid) {operation : Int → Mutation σ JsError α} {now : Int}
    {store : Option σ} {before after : σ} {a : α} (hRead : format.read store = .ok before)
    (hNow : now.natAbs ≤ 8640000000000000) (hRun : operation now before = (.ok a, after)) (hValid : valid after) :
    format.mutate operation (some now) store = .ok (a, after) := by
  have hClock : format.timestamp (some now) = .ok now := if_pos hNow
  have hWrite : format.validate after = .ok after := (h _ _).mpr ⟨hValid, rfl⟩
  rw [mutate, hRead, ok_bind, hClock, ok_bind, hRun]
  change (format.validate after >>= _) = _
  rw [hWrite]
  rfl

theorem mutate_of_error {operation : Int → Mutation σ JsError α} {now : Int} {store : Option σ} {before after : σ}
    {e : JsError} (hRead : format.read store = .ok before) (hNow : now.natAbs ≤ 8640000000000000)
    (hRun : operation now before = (.error e, after)) : format.mutate operation (some now) store = .error e := by
  have hClock : format.timestamp (some now) = .ok now := if_pos hNow
  rw [mutate, hRead, ok_bind, hClock, ok_bind, hRun]
  rfl

theorem Accepts.update_ok (h : format.Accepts valid) {operation : Mutation σ JsError α} {store : Option σ} {a : α}
    {state : σ} (hUpdate : format.update operation store = .ok (a, state)) :
    operation (store.getD format.empty) = (.ok a, state) ∧ valid state := by
  obtain ⟨before, hRead, hUpdate⟩ := bind_eq_ok hUpdate
  rw [h.read_ok hRead] at hUpdate
  split at hUpdate
  · cases hUpdate
  · rename_i result after hRun
    obtain ⟨validated, hValidated, hPure⟩ := bind_eq_ok hUpdate
    obtain ⟨hValid, rfl⟩ := (h _ _).mp hValidated
    cases hPure
    exact ⟨hRun, hValid⟩

theorem Accepts.update_of (h : format.Accepts valid) {operation : Mutation σ JsError α} {store : Option σ}
    {before after : σ} {a : α} (hRead : format.read store = .ok before) (hRun : operation before = (.ok a, after))
    (hValid : valid after) : format.update operation store = .ok (a, after) := by
  have hWrite : format.validate after = .ok after := (h _ _).mpr ⟨hValid, rfl⟩
  rw [update, hRead, ok_bind, hRun]
  change (format.validate after >>= _) = _
  rw [hWrite]
  rfl

theorem Accepts.read_of_size (h : format.Accepts valid) {state : σ} (hValid : valid state)
    (hBytes : format.bytes state ≤ format.maxBytes) : format.read (some state) = .ok state := by
  rw [read, if_neg (Nat.not_lt.mpr hBytes)]
  exact (h _ _).mpr ⟨hValid, rfl⟩

theorem bytes_le_of_weight {state : σ} (h : Json.weight 0 (format.toJson state) + 1 ≤ format.maxBytes) :
    format.bytes state ≤ format.maxBytes := by
  have hWithin : (Json.pretty 0 (format.toJson state)).utf8ByteSize ≤ _ := Json.within_weight (format.toJson state) 0
  have hLine : "\n".utf8ByteSize = 1 := by decide
  rw [bytes, Json.fileText, String.utf8ByteSize_append, hLine]
  omega

end StoreFormat

end GhostApi.Storage
