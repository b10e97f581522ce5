import SnapshotPlan.World.Builder

/-!
# Blocks worlds

A generator of problems about blocks on a table.  All blocks start on the table and free on top;
the goal is one tower in which each block stands on the next one and the last on the table.

The fluents of `n` blocks are numbered `ontable(x)` first, then `clear(x)`, then `on(x,y)` row by
row for `x ≠ y`; `Blocks.ontable`, `Blocks.clear` and `Blocks.on` are these numbers, and
`Blocks.fluentNames` lists the names in the same order.
-/

set_option autoImplicit false

namespace SnapshotPlan.Blocks

/-! ## Names and numbers of the fluents -/

/-- Blocks are named `A` to `Z`, and from the 27th on by their number, counted from zero. -/
def blockName (i : Nat) : String :=
  if i < 26 then String.singleton (Char.ofNat (65 + i)) else "B" ++ toString i

/-- The blocks other than `x`, in order. -/
def others (n x : Nat) : List Nat := (List.range n).filter fun y => y ≠ x

/-- The names of all fluents, in the order of their numbers. -/
def fluentNames (n : Nat) : List String :=
  ((List.range n).map fun x => "ontable(" ++ blockName x ++ ")")
    ++ ((List.range n).map fun x => "clear(" ++ blockName x ++ ")")
    ++ (List.range n).flatMap fun x => (others n x).map fun y =>
      "on(" ++ blockName x ++ "," ++ blockName y ++ ")"

/-- Block `x` stands on the table. -/
def ontable (x : Nat) : FluentId := .ofNat x

/-- Nothing stands on block `x`. -/
def clear (n x : Nat) : FluentId := .ofNat (n + x)

/-- Block `x` stands on block `y`, another one. -/
def on (n x y : Nat) : FluentId := .ofNat (2 * n + x * (n - 1) + if y < x then y else y - 1)

/-! ## Actions -/

/-- An action that asks for the listed fluents, adds some and deletes some. -/
def operator (name : String) (needs adds deletes : List FluentId) : Action where
  name := name
  precondition := .ofLists needs []
  effects := [⟨.empty, .ofLists adds deletes⟩]

/-- Takes block `x` from block `y` and puts it on block `z`. -/
def move (n x y z : Nat) : Action :=
  operator ("move(" ++ blockName x ++ "," ++ blockName y ++ "," ++ blockName z ++ ")")
    [on n x y, clear n x, clear n z] [on n x z, clear n y] [on n x y, clear n z]

/-- Takes block `x` from block `y` and puts it on the table. -/
def moveToTable (n x y : Nat) : Action :=
  operator ("move-to-table(" ++ blockName x ++ "," ++ blockName y ++ ")")
    [on n x y, clear n x] [ontable x, clear n y] [on n x y]

/-- Takes block `x` from the table and puts it on block `y`. -/
def moveFromTable (n x y : Nat) : Action :=
  operator ("move-from-table(" ++ blockName x ++ "," ++ blockName y ++ ")")
    [ontable x, clear n x, clear n y] [on n x y] [ontable x, clear n y]

/-- All actions: for each block and each other one the moves between blocks, the move to the table
and the move from it. -/
def actions (n : Nat) : List Action :=
  (List.range n).flatMap fun x => (others n x).flatMap fun y =>
    ((others n x).filter fun z => z ≠ y).map (move n x y) ++
      [moveToTable n x y, moveFromTable n x y]

/-! ## The problem -/

/-- All blocks stand on the table and nothing stands on them. -/
def initial (n : Nat) : InitialState :=
  .ofLists ((List.range n).map ontable ++ (List.range n).map (clear n)) []

/-- Each block stands on the next, and the last on the table. -/
def goal (n : Nat) : Condition :=
  .ofLists (((List.range (n - 1)).map fun x => on n x (x + 1))
    ++ if n = 0 then [] else [ontable (n - 1)]) []

/-- The blocks world with `n` blocks. -/
def world (n : Nat) : Except ProblemError Problem :=
  Problem.assemble (fluentNames n) (actions n) (initial n) (goal n)

end SnapshotPlan.Blocks
