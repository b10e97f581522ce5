import SnapshotPlan.Settings.Environment
import SnapshotPlan.Settings.Scalar

/-!
# Parameters

A parameter takes its value from an environment variable or, if that is not set, not a text or not
a value of the type, from a default text.  The value is decided once: by the first read that finds
one, or by the first `trySet`.  From then on it stays, whatever the environment becomes.  A default
that stands for no value leaves the parameter undecided.
-/

set_option autoImplicit false

namespace SnapshotPlan

/-- The failures of a parameter. -/
inductive ParameterFault where
  /-- The value is decided already. -/
  | alreadyInitialized (name : String)
  /-- The text stands for no value. -/
  | unparsable (name text : String)
  deriving DecidableEq

namespace ParameterFault

/-- The wording of the failure. -/
def message : ParameterFault → String
  | alreadyInitialized name =>
    "Parameter " ++ name ++ " is already initialized (it was previously read or set)"
  | unparsable name text => "Parameter " ++ name ++ ": could not parse \"" ++ text ++ "\""

/-- The wording for those who count on the default being a value. -/
def alarm (fault : ParameterFault) : String :=
  "[env_param] invalid default value: " ++ fault.message

end ParameterFault

/-- A parameter with the name of its variable, its default text, and its value once decided. -/
structure Parameter (α : Type) where
  name : String
  default : String
  value : Option α

namespace Parameter

variable {α : Type}

/-- An undecided parameter. -/
def undecided (name default : String) : Parameter α := ⟨name, default, none⟩

/-- The value is decided. -/
def isDecided (p : Parameter α) : Bool := p.value.isSome

/-- The value that the environment and the default give. -/
def consult [Scalar α] (p : Parameter α) (env : Environment) : Except ParameterFault α :=
  match (env.text? p.name).bind Scalar.read? with
  | some v => .ok v
  | none =>
    match Scalar.read? p.default with
    | some v => .ok v
    | none => .error (.unparsable p.name p.default)

/-- Reads the parameter, deciding it if it is not.  Returns the value and the parameter after. -/
def get [Scalar α] (p : Parameter α) (env : Environment) :
    Except ParameterFault α × Parameter α :=
  match p.value with
  | some v => (.ok v, p)
  | none =>
    match p.consult env with
    | .ok v => (.ok v, { p with value := some v })
    | .error fault => (.error fault, p)

/-- Decides the parameter, unless it is decided already. -/
def trySet (p : Parameter α) (v : α) : Except ParameterFault (Parameter α) :=
  match p.value with
  | some _ => .error (.alreadyInitialized p.name)
  | none => .ok { p with value := some v }

end Parameter

end SnapshotPlan
