import SnapshotPlan.Encoding.Decoding

/-!
# Writing plans and valuations

A plan is written with one action per line, after its position in three columns.  A valuation is
written with one object per line, after `+` if it is true and `-` if it is false: first the
fluents, then the actions, each group in its order.  An object that the problem does not declare
has no name, and then there is no text.
-/

set_option autoImplicit false

namespace SnapshotPlan

/-- The name of a fluent or an action, if the problem declares it. -/
def Problem.objectName? (p : Problem) : Object → Option String
  | .fluent f => p.fluentName? f
  | .action a => p.actionName? a

/-- A number right-aligned in three columns. -/
def column (n : Nat) : String :=
  let digits := toString n
  String.ofList (List.replicate (3 - digits.length) ' ') ++ digits

/-- The line of the action at position `i`. -/
def Plan.line (i : Nat) (name : String) : String := column i ++ ": " ++ name ++ "\n"

/-- The plan, one action per line. -/
def Plan.render? (p : Problem) (plan : Plan) : Option String :=
  (plan.actions.zipIdx.mapM fun q => (p.actionName? q.1).map (Plan.line q.2)).map String.join

/-- The line of an object. -/
def Valuation.line (name : String) (value : Bool) : String :=
  (if value then "+ " else "- ") ++ name ++ "\n"

/-- The valuation, fluents first, one object per line. -/
def Valuation.render? (p : Problem) (v : Valuation) : Option String :=
  let grouped := v.filter (fun q => q.1.isFluent) ++ v.filter (fun q => q.1.isAction)
  (grouped.mapM fun q => (p.objectName? q.1).map fun name => Valuation.line name q.2).map
    String.join

end SnapshotPlan
