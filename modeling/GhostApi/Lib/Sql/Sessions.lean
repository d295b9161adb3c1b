import GhostApi.Lib.Program
import GhostApi.Lib.Sql.Rows

/-!
# Concurrent clients of a database under READ COMMITTED

Every statement sees the rows that are committed when it runs, with the
versions that its own transaction wrote. A statement waits for the row locks
that it needs, and a transaction holds its locks until it ends. Waiting for
the entry of a unique index is a lock on that entry. A statement over several
rows is a query for their keys and one statement for each row.
-/

namespace Sql

open Effect Transition

variable {κ : Type} {V : κ → Type} {ι γ δ ε χ Query External Note Call α : Type}

structure Outcome (V : κ → Type) (δ α : Type) where
  locks : List κ := []
  writes : List (Change V) := []
  reply : Except δ α

def Outcome.keys (outcome : Outcome V δ α) : List κ := outcome.locks ++ outcome.writes.map (·.key)

def Outcome.returning {β : Type} (outcome : Outcome V δ α) (b : β) : Outcome V δ β :=
  { locks := outcome.locks, writes := outcome.writes, reply := outcome.reply.map fun _ => b }

/-- What a statement does at a transaction's now() on the rows that it sees, and everything
outside the database. The test tells which rows are locked by others. -/
structure Engine (V : κ → Type) (ι γ δ ε χ : Type) {Query External : Type} (Note : Type) (Reply : Query → Type)
    (Answer : External → Type) where
  execute : (q : Query) → Nat → (κ → Bool) → Rows V → Outcome V δ (Reply q)
  /-- The constraints that are checked when a transaction with these writes commits over these rows. -/
  deferred : List (Change V) → Rows V → Option δ
  inFailedTransaction : δ
  raise : δ → ε
  answer : (x : External) → ι → χ → γ → Option (Except ε (Answer x) × γ)
  /-- What happens outside without a call. -/
  drift : χ → γ → Option γ
  /-- What is remembered of a committed transaction, and of a client that ends or stops. -/
  record : Note → ι → γ → γ
  halt : ι → γ → γ

structure Committed (V : κ → Type) (γ : Type) where
  rows : Rows V
  world : γ
  clock : Nat

structure Server (V : κ → Type) (ι γ : Type) extends Committed V γ where
  owner : κ → Option ι := fun _ => none

structure Transaction (V : κ → Type) where
  now : Nat
  writes : List (Change V) := []
  aborted : Bool := false

inductive Op (Query External Note ε : Type)
  | start
  | query (q : Query)
  | commit (note : Note)
  | rollback (cause : ε)
  | external (x : External)

def Op.Result (Reply : Query → Type) (Answer : External → Type) : Op Query External Note ε → Type
  | .start | .commit _ | .rollback _ => Unit
  | .query q => Reply q
  | .external x => Answer x

/-- How a call ends: as it should, with a failure that leaves nothing behind, or with a failure
although a commit took place. -/
inductive Choice (δ χ : Type)
  | ok
  | fail (d : δ)
  | lost (d : δ)
  | outside (c : χ)

namespace Server

variable [DecidableEq κ] [DecidableEq ι] (s : Server V ι γ) (i : ι)

def busy (k : κ) : Bool := match s.owner k with
  | some j => decide (j ≠ i)
  | none => false

def lock (keys : List κ) : Server V ι γ := { s with owner := fun k => if k ∈ keys then some i else s.owner k }

def release : Server V ι γ := { s with owner := fun k => if s.owner k = some i then none else s.owner k }

end Server

section Respond

variable {Reply : Query → Type} {Answer : External → Type} [DecidableEq κ] [DecidableEq ι]
  (engine : Engine V ι γ δ ε χ Note Reply Answer) (i : ι)

def Server.commit (s : Server V ι γ) (writes : List (Change V)) (note : Note) : Server V ι γ :=
  { s.release i with rows := s.rows.apply writes, world := engine.record note i s.world }

abbrev Session (V : κ → Type) (ι γ : Type) := Option (Transaction V) × Server V ι γ

def runQuery (q : Query) (t : Transaction V) (s : Server V ι γ) : Option (Except ε (Reply q) × Session V ι γ) :=
  if t.aborted then some (.error (engine.raise engine.inFailedTransaction), some t, s)
  else
    let outcome := engine.execute q t.now (s.busy i) (s.rows.apply t.writes)
    if outcome.keys.any (s.busy i) then none
    else match outcome.reply with
      | .ok a => some (.ok a, some { t with writes := t.writes ++ outcome.writes }, s.lock i outcome.keys)
      | .error d => some (.error (engine.raise d), some { t with aborted := true }, s)

def runCommit (note : Note) (reply : Except ε Unit) (t : Transaction V) (s : Server V ι γ) :
    Option (Except ε Unit × Session V ι γ) :=
  if t.aborted then some (reply, none, s.release i)
  else match engine.deferred t.writes s.rows with
    | some d => some (.error (engine.raise d), none, s.release i)
    | none => some (reply, none, s.commit engine i t.writes note)

def respondStart : Choice δ χ → Session V ι γ → Option (Except ε Unit × Session V ι γ)
  | .ok, (none, s) => some (.ok (), some { now := s.clock }, s)
  | .fail d, (none, s) => some (.error (engine.raise d), none, s)
  | _, _ => none

def respondQuery (q : Query) : Choice δ χ → Session V ι γ → Option (Except ε (Reply q) × Session V ι γ)
  | .ok, (some t, s) => runQuery engine i q t s
  | .fail d, (some t, s) => some (.error (engine.raise d), some { t with aborted := true }, s)
  | _, _ => none

def respondCommit (note : Note) : Choice δ χ → Session V ι γ → Option (Except ε Unit × Session V ι γ)
  | .ok, (some t, s) => runCommit engine i note (.ok ()) t s
  | .lost d, (some t, s) => runCommit engine i note (.error (engine.raise d)) t s
  | .fail d, (some _, s) => some (.error (engine.raise d), none, s.release i)
  | _, _ => none

def respondRollback : Choice δ χ → Session V ι γ → Option (Except ε Unit × Session V ι γ)
  | .ok, (_, s) => some (.ok (), none, s.release i)
  | .fail d, (_, s) => some (.error (engine.raise d), none, s.release i)
  | _, _ => none

def respondExternal (x : External) : Choice δ χ → Session V ι γ → Option (Except ε (Answer x) × Session V ι γ)
  | .outside c, (t, s) => (engine.answer x i c s.world).map fun (reply, world) => (reply, t, { s with world := world })
  | _, _ => none

def respond (op : Op Query External Note ε) (choice : Choice δ χ) (session : Session V ι γ) :
    Option (Except ε (op.Result Reply Answer) × Session V ι γ) :=
  match op with
  | .start => respondStart engine choice session
  | .query q => respondQuery engine i q choice session
  | .commit note => respondCommit engine i note choice session
  | .rollback _ => respondRollback engine i choice session
  | .external x => respondExternal engine i x choice session

end Respond

section Programs

variable {Reply : Query → Type} {Answer : External → Type}

abbrev Routine (ε : Type) {Query External : Type} (Note : Type) (Reply : Query → Type) (Answer : External → Type)
    (α : Type) := Program (Op Query External Note ε) (Op.Result Reply Answer) ε α

def query (q : Query) : Routine ε Note Reply Answer (Reply q) := Program.perform (Op.query q)

def external (x : External) : Routine ε Note Reply Answer (Answer x) := Program.perform (Op.external x)

/-- The transaction function of a connection pool: it commits what the operation did, or rolls it
back and throws the error on. -/
def transaction (note : α → Note) (operation : Routine ε Note Reply Answer α) : Routine ε Note Reply Answer α :=
  tryCatch (do
      Program.perform Op.start
      let result ← operation
      Program.perform (Op.commit (note result))
      return result)
    fun e => do
      tryCatch (Program.perform (Op.rollback e)) fun _ => pure ()
      throw e

/-- A statement outside a transaction is one of its own. -/
def statement (note : Note) (q : Query) : Routine ε Note Reply Answer (Reply q) := transaction (fun _ => note) (query q)

end Programs

/-! ## Any number of clients -/

structure Client (V : κ → Type) (ε Call : Type) {Query External : Type} (Note : Type) (Reply : Query → Type)
    (Answer : External → Type) where
  call : Call
  txn : Option (Transaction V)
  program : Routine ε Note Reply Answer Unit

structure System (V : κ → Type) (ι γ ε Call : Type) {Query External : Type} (Note : Type) (Reply : Query → Type)
    (Answer : External → Type) where
  server : Server V ι γ
  client : ι → Option (Client V ε Call Note Reply Answer) := fun _ => none

inductive Event (ι δ χ Call : Type)
  | start (i : ι) (call : Call)
  | advance (i : ι) (choice : Choice δ χ)
  | stop (i : ι)
  | tick (time : Nat)
  | outside (c : χ)

def Event.client : Event ι δ χ Call → Option ι
  | .start i _ | .advance i _ | .stop i => some i
  | .tick _ | .outside _ => none

namespace System

variable {Reply : Query → Type} {Answer : External → Type} [DecidableEq κ] [DecidableEq ι]
  (engine : Engine V ι γ δ ε χ Note Reply Answer)

def retire (i : ι) (s : System V ι γ ε Call Note Reply Answer) : System V ι γ ε Call Note Reply Answer where
  server := { s.server.release i with world := engine.halt i s.server.world }
  client := Function.update s.client i none

def advance (i : ι) (client : Client V ε Call Note Reply Answer) (choice : Choice δ χ)
    (s : System V ι γ ε Call Note Reply Answer) : Option (System V ι γ ε Call Note Reply Answer) :=
  match client.program with
  | .done _ => some (s.retire engine i)
  | .call op next => (respond engine i op choice (client.txn, s.server)).map fun (reply, txn, server) =>
    ⟨server, Function.update s.client i (some ⟨client.call, txn, next reply⟩)⟩

def step (program : Call → Routine ε Note Reply Answer Unit) (s : System V ι γ ε Call Note Reply Answer) :
    Event ι δ χ Call → Option (System V ι γ ε Call Note Reply Answer)
  | .start i call => match s.client i with
    | none => some { s with client := Function.update s.client i (some ⟨call, none, program call⟩) }
    | some _ => none
  | .advance i choice => (s.client i).bind fun client => s.advance engine i client choice
  | .stop i => (s.client i).map fun _ => s.retire engine i
  | .tick time => some { s with server := { s.server with clock := s.server.clock + time } }
  | .outside c => (engine.drift c s.server.world).map fun world => { s with server := { s.server with world := world } }

def machine (program : Call → Routine ε Note Reply Answer Unit) (initial : Server V ι γ) :
    Machine (System V ι γ ε Call Note Reply Answer) (Event ι δ χ Call) where
  initial := { server := initial }
  step := step engine program

/-- The calls that clients start and the steps that they take meet the guards. -/
def Allowed (admits : Call → Prop) (guard : ι → Op Query External Note ε → Session V ι γ → Prop)
    (s : System V ι γ ε Call Note Reply Answer) : Event ι δ χ Call → Prop
  | .start _ call => admits call
  | .advance i _ => ∀ client op next, s.client i = some client → client.program = .call op next →
    guard i op (client.txn, s.server)
  | _ => True

end System

end Sql
