import SnapshotPlan.Command.Run

/-!
# Writing the file of a run

A run may have to write a file before it reports.  `Response.carryOut` does so with any `Files`,
which are what the command knows of a file system: a file can be created and written to, and either
may fail.

What is written is held back up to `bufferSize` bytes until the file is closed, and what goes wrong
at that time goes unnoticed.  So a text that is not longer is written as far as the run is
concerned, whatever becomes of it.
-/

set_option autoImplicit false

namespace SnapshotPlan.Command

/-- What the command knows of a file system.  A failure comes with the system's reason. -/
structure Files (m : Type → Type) where
  /-- A file that is open for writing. -/
  Handle : Type
  create : (path : String) → m (Except String Handle)
  put : Handle → (text : String) → m (Except String Unit)

/-- What the system says of a failure, with its number. -/
def reason (what : String) (number : Nat) : String :=
  what ++ " (os error " ++ toString number ++ ")"

/-- The run fails because the file cannot be created, for the given reason. -/
def Report.cannotCreate (path reason : String) : Report :=
  .failure ("Cannot create " ++ path ++ "\n\nCaused by:\n    " ++ reason)

/-- The size in bytes of what is held back while a text is written. -/
def bufferSize : Nat := 8192

/-- Writes the file of a run, if there is one, and reports. -/
def Response.carryOut {m : Type → Type} [Monad m] (files : Files m) (response : Response m) :
    m Report :=
  match response.file with
  | none => response.report
  | some (path, text) => do
    match ← files.create path with
    | .error reason => pure (.cannotCreate path reason)
    | .ok handle =>
      match ← files.put handle text with
      | .ok () => response.report
      | .error reason =>
        if bufferSize < text.utf8ByteSize then pure (.failure reason) else response.report

end SnapshotPlan.Command
