import SnapshotPlan.Command.Options
import SnapshotPlan.Dimacs.Writer
import SnapshotPlan.Oracle.Buffer
import SnapshotPlan.Planner.Report
import SnapshotPlan.Planner.Solve
import SnapshotPlan.Settings.Planner
import SnapshotPlan.World.Generator

/-!
# The command

The command generates a blocks world, encodes it, perhaps writes the encoding to a file, solves it
and prints the plan.  Everything it prints is decided here, from its options and its environment.

Solving waits for a search, and under a time limit what comes of that is not the command's to
decide.  So the timed search is a parameter, and the report is an act on the world `m` that the
search acts on.  If there is a file to be written, this is done before: see `Command.Writing`.
-/

set_option autoImplicit false

namespace SnapshotPlan.Command

/-- What a run of the command leaves behind, a file apart. -/
structure Report where
  code : Nat
  stdout : String
  stderr : String
  deriving DecidableEq

/-- A run that fails with a message. -/
def Report.failure (message : String) : Report := ⟨1, "", "Error: " ++ message ++ "\n"⟩

/-- A run that ends with the generator, which never happens: see `Blocks.exists_generate`. -/
def Report.stopped (stop : Blocks.Stop) : Report := ⟨101, "", stop.message ++ "\n"⟩

/-- A run of the command: a path and a text to write to it first, if any, and then the report. -/
structure Response (m : Type → Type) where
  file : Option (String × String)
  report : m Report

/-- The configuration: what an option sets comes from the option, the rest from the environment. -/
def configure (options : Options) (config : Config) : Config where
  maxVariables := options.maxVariables.getD config.maxVariables
  expectedClauses := options.expectedClauses.getD config.expectedClauses
  timeout := match options.timeoutSecs with
    | some secs => some (.ofSecs secs.toNat)
    | none => config.timeout

/-- What is printed for an outcome. -/
def render? (p : Problem) (printModel : Bool) : Outcome → Option String
  | .unsatisfiable => some "UNSAT\n"
  | .plan solution => do
    let model ← if printModel then (solution.valuation.render? p).map (· ++ "\n") else some ""
    let plan ← solution.plan.render? p
    return "SAT\n" ++ model ++ "Plan (" ++ toString solution.plan.actions.length ++ " actions):\n"
      ++ plan

/-- The report on an outcome. -/
def reportOn (p : Problem) (printModel : Bool) (outcome : Outcome) : Report :=
  match render? p printModel outcome with
  | some text => ⟨0, text, ""⟩
  | none => .failure "the plan mentions an object that the problem does not declare"

section Solving

variable {m : Type → Type} [Monad m] (search : TimedSearch m)

/-- The report on a problem that has been solved, or could not be. -/
def reportAnswer (p : Problem) (printModel : Bool) : Except PlanFault Outcome → Report
  | .error fault => .failure fault.message
  | .ok outcome => reportOn p printModel outcome

/-- Solves a problem and reports. -/
def answer (p : Problem) (config : Config) (printModel : Bool) : m Report :=
  reportAnswer p printModel <$> solve (searchOracle search config.timeout) p config

/-- Runs the command on a problem. -/
def respond (p : Problem) (options : Options) (config : Config) : Response m :=
  match options.dimacs with
  | none => ⟨none, answer search p config options.printModel⟩
  | some path =>
    match p.toFormula config with
    | .error fault => ⟨none, pure (.failure fault.message)⟩
    | .ok f => ⟨some (path, f.dimacsText), answer search p config options.printModel⟩

/-- Runs the command with its options, in an environment. -/
def run (options : Options) (env : Environment) : Response m :=
  match (PlannerParameters.fresh.config env).1 with
  | .error fault => ⟨none, pure (.failure fault.message)⟩
  | .ok config =>
    match Blocks.generate options.blocks with
    | .error stop => ⟨none, pure (.stopped stop)⟩
    | .ok p => respond search p options (configure options config)

end Solving

/-! ## Fixed texts

What the command prints without running. -/

/-- The name and version of the command. -/
def versionText : String := "satplan 0.1.0\n"

/-- How to use the command. -/
def usageText : String := "USAGE:\n    satplan [FLAGS] [OPTIONS]\n"

/-- The options of the command. -/
def helpText : String :=
  versionText
    ++ "Encodes a ground blocks-world problem into SAT, "
    ++ "solves it and prints the selected actions\n\n"
    ++ usageText
    ++ "\nFLAGS:\n"
    ++ "    -h, --help           Prints help information\n"
    ++ "        --print-model    Print the value of every fluent and action in the model\n"
    ++ "    -V, --version        Prints version information\n"
    ++ "\nOPTIONS:\n"
    ++ "    -b, --blocks <blocks>                        Number of blocks [default: 3]\n"
    ++ "        --dimacs <dimacs>                        Write the encoded instance to this file\n"
    ++ "        --expected-clauses <expected-clauses>    Number of clauses to preallocate\n"
    ++ "    -l, --log-level <log-level>                  Logging level [default: info]\n"
    ++ "        --max-variables <max-variables>          Maximal number of variables\n"
    ++ "    -t, --timeout <timeout>                      Seconds to wait for the solver\n"

/-- The report on arguments that are refused. -/
def usageReport : Report :=
  ⟨1, "", "error: Found an argument which wasn't expected, or a value that is not valid\n\n"
    ++ usageText⟩

end SnapshotPlan.Command
