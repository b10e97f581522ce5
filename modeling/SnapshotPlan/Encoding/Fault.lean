import SnapshotPlan.Encoding.Object
import SnapshotPlan.Oracle.Fault

/-!
# What can go wrong in planning

An unsatisfiable encoding is an outcome and not a failure.  `PlanFault.message` is the wording.
-/

set_option autoImplicit false

namespace SnapshotPlan

/-- The failures of numbering, encoding, asking and decoding. -/
inductive PlanFault where
  /-- The object has no variable. -/
  | unregistered (object : Object)
  /-- The number is not that of a variable; `size` variables are. -/
  | outOfRange (index : Int) (size : Nat)
  /-- The object is listed twice. -/
  | duplicate (object : Object)
  /-- More variables are required than there can be. -/
  | overflow (required max : Nat)
  /-- The oracle failed. -/
  | oracle (fault : OracleFault)
  deriving DecidableEq

/-- The wording of the failure. -/
def PlanFault.message : PlanFault → String
  | unregistered object => object.describe ++ " is not registered"
  | outOfRange index size =>
    "Variable index " ++ toString index ++ " is out of range [1, " ++ toString size ++ "]"
  | duplicate object => object.describe ++ " is registered more than once"
  | overflow required max =>
    "The problem requires " ++ toString required
      ++ " variables but the solver accepts at most " ++ toString max
  | oracle fault => fault.message

end SnapshotPlan
