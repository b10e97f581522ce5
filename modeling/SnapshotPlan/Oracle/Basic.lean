import SnapshotPlan.Logic.Model
import SnapshotPlan.Oracle.Fault

/-!
# Oracles

An oracle decides whether clauses can be satisfied together.  One opens an instance, offers it
clauses, each of which it may refuse, and asks for the verdict.  What else happens on the way is a
matter of the monad `m`: a pure oracle lives in `Id`, one with a world of its own in a state monad.

`Oracle.offer` offers clauses in order and stops at the first refusal; `Oracle.consult` opens an
instance, offers all clauses and asks.  `Oracle.observed` writes down the calls made to an oracle.
-/

set_option autoImplicit false

namespace SnapshotPlan

/-- The answer of an oracle. -/
inductive Verdict where
  | satisfiable (model : Model)
  | unsatisfiable
  deriving DecidableEq

/-- A source of verdicts. -/
structure Oracle (m : Type → Type) where
  /-- An instance under construction. -/
  Instance : Type
  /-- Opens an instance over the variables `1, …, maxVariables`.  The number of clauses to expect
  is only a hint. -/
  newInstance : (maxVariables expectedClauses : Nat) → m Instance
  /-- Offers one more clause. -/
  addClause : Instance → Clause → m (Except OracleFault Instance)
  /-- Asks whether the clauses accepted so far can be satisfied. -/
  verdict : Instance → m (Except OracleFault Verdict)

namespace Oracle

variable {m : Type → Type} [Monad m]

/-- Offers clauses in order, up to the first refusal. -/
@[specialize]
def offer (o : Oracle m) (i : o.Instance) : List Clause → m (Except OracleFault o.Instance)
  | [] => pure (.ok i)
  | c :: cs => do
    match ← o.addClause i c with
    | .error fault => pure (.error fault)
    | .ok i => offer o i cs

/-- Opens an instance, offers all clauses and asks for the verdict. -/
@[specialize]
def consult (o : Oracle m) (maxVariables expectedClauses : Nat) (cs : List Clause) :
    m (Except OracleFault Verdict) := do
  let i ← o.newInstance maxVariables expectedClauses
  match ← o.offer i cs with
  | .error fault => pure (.error fault)
  | .ok i => o.verdict i

/-! ## Watching an oracle

Any oracle can be watched: beside its own world `W`, the calls that are made to it are written
down. -/

/-- A call made to an oracle. -/
inductive Call where
  | newInstance (maxVariables expectedClauses : Nat)
  | addClause (clause : Clause)
  | verdict
  deriving DecidableEq

variable {W : Type}

/-- Acts on the world and writes down the call, the last one first. -/
def noting {α : Type} (call : Call) (act : StateM W α) : StateM (W × List Call) α := fun s =>
  ((act.run s.1).1, (act.run s.1).2, call :: s.2)

/-- The oracle with every call to it written down beside its world. -/
abbrev observed (o : Oracle (StateM W)) : Oracle (StateM (W × List Call)) where
  Instance := o.Instance
  newInstance := fun n expected => noting (.newInstance n expected) (o.newInstance n expected)
  addClause := fun i c => noting (.addClause c) (o.addClause i c)
  verdict := fun i => noting .verdict (o.verdict i)

end Oracle

end SnapshotPlan
