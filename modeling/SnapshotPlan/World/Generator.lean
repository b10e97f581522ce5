import SnapshotPlan.World.Blocks

/-!
# Generating a blocks world step by step

`Blocks.world` has formulas for the numbers of the fluents.  The generator has none: it declares the
fluents at a builder, keeps the numbers that it is given, and looks them up when it writes the
actions.  A declaration may be refused and a look-up may find nothing; the generator has no answer
to either, and stops.

## What is here

* `Stop` — the reasons to stop, and `Step` — what the generator does with a builder.
* `Vocabulary` — the numbers of the fluents as they were given, and `declareAll`.
* `findActions`, `findGoal` — actions and goal from a vocabulary.
* `generate` — the generator.
-/

set_option autoImplicit false

namespace SnapshotPlan.Blocks

/-! ## Steps that may end everything

Every place where the generator relies on something that it does not check ends in a `Stop`, with
the text that goes with it. -/

/-- Why the generator would have to stop.  It takes each of these for impossible. -/
inductive Stop where
  /-- A builder refuses. -/
  | refused (complaint : String) (cause : ProblemError)
  /-- There is no such fluent. -/
  | absent (complaint : String)
  /-- A list is too short. -/
  | outside (index : Nat)
  deriving DecidableEq

/-- What is said of a stop. -/
def Stop.message : Stop → String
  | .refused complaint _ => complaint
  | .absent complaint => complaint
  | .outside index => "no item at index " ++ toString index

/-- Something done with a builder. -/
abbrev Step := StateT Builder (Except Stop)

/-- Asks the builder for something that it must not refuse. -/
def ask {α : Type} (complaint : String) (call : Builder → Except ProblemError α × Builder) :
    Step α := fun b =>
  match call b with
  | (.ok a, b) => .ok (a, b)
  | (.error cause, _) => .error (.refused complaint cause)

/-- The item at an index. -/
def item {α : Type} (xs : List α) (i : Nat) : Except Stop α :=
  match xs[i]? with
  | some x => .ok x
  | none => .error (.outside i)

/-! ## Fluents -/

/-- The numbers of the fluents, by the indices of the blocks that they are about. -/
structure Vocabulary where
  ontable : List FluentId
  clear : List FluentId
  /-- A block does not stand on itself, and there is no fluent that says so. -/
  on : List (List (Option FluentId))
  deriving DecidableEq

namespace Vocabulary

/-- The fluent that block `x` stands on block `y`. -/
def find (v : Vocabulary) (x y : Nat) : Except Stop FluentId := do
  match ← item (← item v.on x) y with
  | some f => .ok f
  | none => .error (.absent "no on(x,x) fluent")

end Vocabulary

/-- Declares a fluent. -/
def declare (name : String) : Step FluentId := ask "duplicate fluent" fun b => b.addFluent name

/-- Declares all fluents about blocks with the given names.  Blocks with distinct names are taken
for distinct. -/
def declareAll (names : List String) : Step Vocabulary := do
  let ontable ← names.mapM fun x => declare ("ontable(" ++ x ++ ")")
  let clear ← names.mapM fun x => declare ("clear(" ++ x ++ ")")
  let on ← names.mapM fun x => names.mapM fun y =>
    if x ≠ y then some <$> declare ("on(" ++ x ++ "," ++ y ++ ")") else pure none
  return ⟨ontable, clear, on⟩

/-! ## Actions and goal -/

section Find

variable (names : List String) (v : Vocabulary)

/-- Takes block `x` from block `y` and puts it on block `z`. -/
def findMove (x y z : Nat) : Except Stop Action := do
  return operator
    ("move(" ++ (← item names x) ++ "," ++ (← item names y) ++ "," ++ (← item names z) ++ ")")
    [← v.find x y, ← item v.clear x, ← item v.clear z] [← v.find x z, ← item v.clear y]
    [← v.find x y, ← item v.clear z]

/-- Takes block `x` from block `y` and puts it on the table. -/
def findMoveToTable (x y : Nat) : Except Stop Action := do
  return operator ("move-to-table(" ++ (← item names x) ++ "," ++ (← item names y) ++ ")")
    [← v.find x y, ← item v.clear x] [← item v.ontable x, ← item v.clear y] [← v.find x y]

/-- Takes block `x` from the table and puts it on block `y`. -/
def findMoveFromTable (x y : Nat) : Except Stop Action := do
  return operator ("move-from-table(" ++ (← item names x) ++ "," ++ (← item names y) ++ ")")
    [← item v.ontable x, ← item v.clear x, ← item v.clear y] [← v.find x y]
    [← item v.ontable x, ← item v.clear y]

/-- The actions that take block `x` from block `y` or put it there from the table. -/
def findPair (n x y : Nat) : Except Stop (List Action) := do
  let moves ← ((List.range n).filter fun z => z ≠ x ∧ z ≠ y).mapM (findMove names v x y)
  return moves ++ [← findMoveToTable names v x y, ← findMoveFromTable names v x y]

/-- The actions that move block `x`. -/
def findGroup (n x : Nat) : Except Stop (List Action) := do
  let pairs ← ((List.range n).filter fun y => y ≠ x).mapM (findPair names v n x)
  return pairs.flatten

/-- All actions. -/
def findActions (n : Nat) : Except Stop (List Action) := do
  let groups ← (List.range n).mapM (findGroup names v n)
  return groups.flatten

/-- The goal: each block on the next, and the last on the table, if there is one. -/
def findGoal (n : Nat) : Except Stop Condition := do
  let pairs ← (List.range (n - 1)).mapM fun x => v.find x (x + 1)
  return .ofLists (pairs ++ v.ontable.getLast?.toList) []

end Find

/-! ## The generator -/

/-- All that is asked of the builder. -/
def steps (n : Nat) : Step Unit := do
  let names := (List.range n).map blockName
  let v ← declareAll names
  let actions ← findActions names v n
  forM actions fun a => discard (ask "action refers to an undeclared fluent" fun b => b.addAction a)
  ask "invalid initial state" fun b => b.setInitial (.ofLists (v.ontable ++ v.clear) [])
  let goal ← findGoal v n
  ask "invalid goal" fun b => b.setGoal goal

/-- The blocks world with `n` blocks, made step by step. -/
def generate (n : Nat) : Except Stop Problem :=
  ((steps n).run .blank).map fun q => q.2.build

end SnapshotPlan.Blocks
