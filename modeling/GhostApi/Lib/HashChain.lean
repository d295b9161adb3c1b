import Mathlib.Data.List.Range

/-!
# Hash-chained records

Each record names the hash of the one before it, the first one an anchor. The
records of a numbered chain carry their position too.
-/

structure HashChain (ρ κ : Type*) where
  previousHash : ρ → κ
  recordHash : ρ → κ

namespace HashChain

variable {ρ κ ε : Type*} (chain : HashChain ρ κ)

def Linked (previous : κ) : List ρ → Prop
  | [] => True
  | record :: rest => chain.previousHash record = previous ∧ Linked (chain.recordHash record) rest

def latest (anchor : κ) (records : List ρ) : κ := (records.getLast?.map chain.recordHash).getD anchor

variable {chain} {previous : κ} {records : List ρ}

theorem latest_cons (anchor : κ) (record : ρ) (rest : List ρ) :
    chain.latest anchor (record :: rest) = chain.latest (chain.recordHash record) rest := by
  cases rest with
  | nil => rfl
  | cons next rest => simp [latest, List.getLast?_eq_some_getLast]

theorem linked_append {record : ρ} : chain.Linked previous (records ++ [record]) ↔
    chain.Linked previous records ∧ chain.previousHash record = chain.latest previous records := by
  induction records generalizing previous with
  | nil => simp [Linked, latest]
  | cons first rest ih => rw [List.cons_append, Linked, ih, Linked, latest_cons, and_assoc]

theorem agree_of_latest {agree : ρ → ρ → Prop} {previous' : κ} {records' : List ρ}
    (hLength : records.length = records'.length) (hLinked : chain.Linked previous records)
    (hLinked' : chain.Linked previous' records')
    (hLatest : chain.latest previous records = chain.latest previous' records')
    (hHash : ∀ x ∈ records, ∀ y ∈ records', chain.recordHash x = chain.recordHash y →
      agree x y ∧ chain.previousHash x = chain.previousHash y) :
    List.Forall₂ agree records records' ∧ previous = previous' := by
  induction records generalizing previous previous' records' with
  | nil =>
    obtain rfl : records' = [] := List.length_eq_zero_iff.mp hLength.symm
    exact ⟨.nil, hLatest⟩
  | cons x rest ih =>
    cases records' with
    | nil => cases hLength
    | cons y rest' =>
      rw [latest_cons, latest_cons] at hLatest
      obtain ⟨hRest, hSame⟩ := ih (Nat.succ.inj hLength) hLinked.2 hLinked'.2 hLatest fun a ha b hb =>
        hHash a (List.mem_cons_of_mem x ha) b (List.mem_cons_of_mem y hb)
      obtain ⟨hAgree, hPrevious⟩ := hHash x List.mem_cons_self y List.mem_cons_self hSame
      refine ⟨.cons hAgree hRest, ?_⟩
      rw [← hLinked.1, ← hLinked'.1, hPrevious]

end HashChain

structure NumberedChain (ρ κ : Type*) extends HashChain ρ κ where
  sequence : ρ → Nat

namespace NumberedChain

variable {ρ κ ε : Type*} (chain : NumberedChain ρ κ)

def Linked (previous : κ) (sequence : Nat) (records : List ρ) : Prop :=
  chain.toHashChain.Linked previous records ∧ records.map chain.sequence = List.range' sequence records.length

def verify [DecidableEq κ] (broken : ε) (previous : κ) (sequence : Nat) : List ρ → Except ε Unit
  | [] => .ok ()
  | record :: rest =>
    if chain.sequence record = sequence ∧ chain.previousHash record = previous then
      verify broken (chain.recordHash record) (sequence + 1) rest
    else .error broken

variable {chain} {previous : κ} {sequence : Nat} {records : List ρ}

theorem verify_eq_ok [DecidableEq κ] {broken : ε} :
    chain.verify broken previous sequence records = .ok () ↔ chain.Linked previous sequence records := by
  induction records generalizing previous sequence with
  | nil => simp [verify, Linked, HashChain.Linked]
  | cons record rest ih =>
    rw [verify]
    split
    · rw [ih]
      simp_all [Linked, HashChain.Linked, List.range'_succ]
    · simp_all [Linked, HashChain.Linked, List.range'_succ]
      tauto

theorem linked_append {record : ρ} : chain.Linked previous sequence (records ++ [record]) ↔
    chain.Linked previous sequence records ∧ chain.sequence record = sequence + records.length ∧
      chain.previousHash record = chain.latest previous records := by
  rw [Linked, HashChain.linked_append, Linked, List.map_append, List.length_append, List.length_singleton,
    List.range'_concat, Nat.one_mul, List.map_singleton]
  have hNumbers : records.map chain.sequence ++ [chain.sequence record] =
      List.range' sequence records.length ++ [sequence + records.length] ↔
      records.map chain.sequence = List.range' sequence records.length ∧
        chain.sequence record = sequence + records.length := by
    constructor
    · intro h
      obtain ⟨hInit, hLast⟩ := List.append_inj h (by simp)
      exact ⟨hInit, List.singleton_inj.mp hLast⟩
    · rintro ⟨hInit, hLast⟩
      rw [hInit, hLast]
  rw [hNumbers]
  tauto

end NumberedChain
