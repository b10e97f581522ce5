import SnapshotPlan.Encoding.Implication
import SnapshotPlan.Encoding.Registry

/-!
# The clauses of a list of actions

Each target of an implication becomes one clause: the escapes, then the target, all numbered by a
registry.  A clause is counted when it is emitted, and the counts are added up from one implication
to the next and from one action to the next.  An object that the registry does not know stops the
work, and what was emitted before it stays: an `Emission` is the clauses and their counts together
with the failure that ended them, if any.

## What is here

* `Tally` — how many clauses there are of each role.
* `Emission.ofAction` — the clauses of one action, each marked with its role, and their tally.
* `encodeAction` — the same clauses put after others, which stay whatever happens.
* `encode` — the clauses of a list of actions, the first failure winning; more variables than
  allowed are refused before anything else.
-/

set_option autoImplicit false

namespace SnapshotPlan

/-! ## Counting clauses by role -/

/-- A number of clauses for each role. -/
structure Tally where
  positivePreconditions : Nat
  negativePreconditions : Nat
  positiveEffects : Nat
  negativeEffects : Nat
  deriving DecidableEq

namespace Tally

/-- No clause. -/
def zero : Tally := ⟨0, 0, 0, 0⟩

/-- One clause of the given role. -/
def one : Role → Tally
  | .positivePrecondition => ⟨1, 0, 0, 0⟩
  | .negativePrecondition => ⟨0, 1, 0, 0⟩
  | .positiveEffect => ⟨0, 0, 1, 0⟩
  | .negativeEffect => ⟨0, 0, 0, 1⟩

/-- The sum, role by role. -/
def add (s t : Tally) : Tally where
  positivePreconditions := s.positivePreconditions + t.positivePreconditions
  negativePreconditions := s.negativePreconditions + t.negativePreconditions
  positiveEffects := s.positiveEffects + t.positiveEffects
  negativeEffects := s.negativeEffects + t.negativeEffects

/-- The number of all clauses. -/
def total (t : Tally) : Nat :=
  t.positivePreconditions + t.negativePreconditions + t.positiveEffects + t.negativeEffects

theorem zero_add (t : Tally) : zero.add t = t := by
  simp only [zero, add, Nat.zero_add]

theorem add_zero (t : Tally) : t.add zero = t := rfl

theorem add_assoc (s t u : Tally) : (s.add t).add u = s.add (t.add u) := by
  simp only [add, Nat.add_assoc]

end Tally

/-! ## Emitting

A failure keeps what came before it and leaves out what would come after it, so an emission is put
together clause by clause (`cons`) and implication by implication (`append`). -/

/-- A clause and the role of its last literal. -/
structure RoleClause where
  role : Role
  clause : Clause
  deriving DecidableEq

/-- Clauses in order, how many were emitted of each role, and the failure that cut them short, if
one did. -/
structure Emission where
  clauses : List RoleClause
  tally : Tally
  failure : Option PlanFault

namespace Emission

/-- A literal over objects as a literal over variables. -/
def number (r : Registry) (l : ObjectLit) : Except PlanFault Lit :=
  (r.varOf l.object).map fun v => ⟨v, l.value⟩

/-- Nothing emitted. -/
def nothing : Emission := ⟨[], .zero, none⟩

/-- A failure before anything was emitted. -/
def fail (fault : PlanFault) : Emission := ⟨[], .zero, some fault⟩

/-- One more clause in front, which is counted. -/
def cons (c : RoleClause) (e : Emission) : Emission :=
  ⟨c :: e.clauses, (Tally.one c.role).add e.tally, e.failure⟩

/-- What is emitted after clauses that met no failure. -/
def append (e e' : Emission) : Emission :=
  ⟨e.clauses ++ e'.clauses, e.tally.add e'.tally, e'.failure⟩

@[simp] theorem failure_append (e e' : Emission) : (e.append e').failure = e'.failure := rfl

theorem nothing_append (e : Emission) : nothing.append e = e := by
  rw [append, nothing, List.nil_append, Tally.zero_add]

theorem cons_append (c : RoleClause) (e e' : Emission) :
    (cons c e).append e' = cons c (e.append e') := by
  simp only [append, cons, List.cons_append, Tally.add_assoc]

/-- One clause for each target, after numbered escapes. -/
def ofTargets (r : Registry) (role : Role) (escapes : List Lit) : List ObjectLit → Emission
  | [] => nothing
  | t :: ts =>
    match number r t with
    | .error fault => fail fault
    | .ok l => cons ⟨role, ⟨escapes ++ [l]⟩⟩ (ofTargets r role escapes ts)

/-- The clauses of an implication.  The escapes are numbered first, even if there is no target. -/
def ofImplication (r : Registry) (i : Implication) : Emission :=
  match i.escapes.mapM (number r) with
  | .error fault => fail fault
  | .ok escapes => ofTargets r i.role escapes i.targets

/-- The clauses of implications in turn, up to the first failure. -/
def ofImplications (r : Registry) : List Implication → Emission
  | [] => nothing
  | i :: is =>
    let first := ofImplication r i
    match first.failure with
    | some _ => first
    | none => first.append (ofImplications r is)

/-- The clauses that an action implies. -/
def ofAction (r : Registry) (id : ActionId) (a : Action) : Emission :=
  ofImplications r (Implication.ofAction id a)

end Emission

/-- Encodes an action behind the clauses `out`.  Returns the tally of what was added, or why it is
not complete, and all clauses afterwards. -/
def encodeAction (r : Registry) (id : ActionId) (a : Action) (out : List Clause) :
    Except PlanFault Tally × List Clause :=
  let e := Emission.ofAction r id a
  let result := match e.failure with
    | some fault => .error fault
    | none => .ok e.tally
  (result, out ++ e.clauses.map RoleClause.clause)

/-! ## Encoding lists of actions -/

/-- The clauses of a list of actions, and the number of those of each role. -/
structure Encoding where
  emitted : List RoleClause
  tally : Tally

/-- The clauses without their roles. -/
def Encoding.clauses (e : Encoding) : List Clause := e.emitted.map RoleClause.clause

/-- Emits the clauses of actions numbered from `i` on after those at hand, and adds their tallies to
`sum`. -/
def encodeFrom (r : Registry) (i : Nat) (done : Array RoleClause) (sum : Tally) :
    List Action → Except PlanFault (Array RoleClause × Tally)
  | [] => .ok (done, sum)
  | a :: as =>
    let e := Emission.ofAction r (.ofNat i) a
    match e.failure with
    | some fault => .error fault
    | none => encodeFrom r (i + 1) (done ++ e.clauses) (sum.add e.tally) as

/-- The clauses of a list of actions, the first of which is action zero, for an oracle that accepts
`maxVariables` variables. -/
def encode (maxVariables : Nat) (actions : List Action) (r : Registry) :
    Except PlanFault Encoding :=
  if maxVariables < r.size then .error (.overflow r.size maxVariables)
  else (encodeFrom r 0 #[] .zero actions).map fun (done, sum) => ⟨done.toList, sum⟩

end SnapshotPlan
