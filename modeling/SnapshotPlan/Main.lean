import SnapshotPlan.Command.Writing

/-!
# The command line program

Reads the arguments and the environment, runs the command, which may write a file, and prints its
report.  What the command leaves open is settled here: which files there are, and how a search is
waited for.
-/

set_option autoImplicit false

namespace SnapshotPlan.Command

/-- The variables that the command looks at. -/
def consultedNames : List String :=
  ["SATPLAN_MAX_VARIABLES", "SATPLAN_EXPECTED_CLAUSES", "SATPLAN_TIMEOUT_SECS"]

/-- The environment of the process, as far as the command looks at it. -/
def processEnvironment : IO Environment := do
  let mut env := Environment.empty
  for name in consultedNames do
    if let some value ← IO.getEnv name then env := env.set name value
  return env

/-- Prints a report and returns its exit code. -/
def print (report : Report) : IO UInt32 := do
  IO.print report.stdout
  IO.eprint report.stderr
  return report.code.toUInt32

/-- What is said of a failure of the system. -/
def describe : IO.Error → String
  | .noFileOrDirectory _ number what => reason what number.toNat
  | .inappropriateType _ number what => reason what number.toNat
  | .invalidArgument _ number what => reason what number.toNat
  | .permissionDenied _ number what => reason what number.toNat
  | .noSuchThing _ number what => reason what number.toNat
  | .resourceExhausted _ number what => reason what number.toNat
  | e => toString e

/-- Does something that may fail, and says why if it does. -/
def trying {α : Type} (act : IO α) : IO (Except String α) := do
  try return .ok (← act)
  catch e => return .error (describe e)

/-- The files of the system. -/
def systemFiles : Files IO where
  Handle := IO.FS.Handle
  create := fun path => trying (IO.FS.Handle.mk path .write)
  put := fun handle text => trying do
    handle.putStr text
    handle.flush

/-- Searches with more and more conflicts allowed, until there is a decision or no one waits for it
any more. -/
def searchBeside (cs : List Clause) : IO (Awaited cs) := do
  for round in [0:30] do
    if ← IO.checkCanceled then return .lost
    if let some d := Decision.attempt (1000 <<< round) cs then return .decided d
  return .decided (.reach cs)

/-- Waits for a search on a thread of its own. -/
def timedSearch : TimedSearch IO := fun limit cs => do
  let deadline := (← IO.monoNanosNow) + limit.nanos
  let task ← IO.asTask (searchBeside cs) Task.Priority.dedicated
  let mut late := false
  while !late && !(← IO.hasFinished task) do
    late := deadline ≤ (← IO.monoNanosNow)
    unless late do IO.sleep 1
  if late then
    IO.cancel task
    return .late
  match task.get with
  | .ok awaited => return awaited
  | .error _ => return .lost

end SnapshotPlan.Command

open SnapshotPlan SnapshotPlan.Command in
/-- The entry point of the command. -/
def main (args : List String) : IO UInt32 := do
  match Options.read args with
  | none => print usageReport
  | some .help => print ⟨0, helpText, ""⟩
  | some .version => print ⟨0, versionText, ""⟩
  | some (.run options) =>
    print (← (run timedSearch options (← processEnvironment)).carryOut systemFiles)
