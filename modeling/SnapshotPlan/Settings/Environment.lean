import SnapshotPlan.Text.Utf8

/-!
# Environment variables

An environment gives some names a value, which is a sequence of bytes and need not be a text.
-/

set_option autoImplicit false

namespace SnapshotPlan

/-- Names with their values, at most one that counts for each name: the first. -/
structure Environment where
  entries : List (String × List UInt8)

namespace Environment

/-- No variable is set. -/
def empty : Environment := ⟨[]⟩

/-- Removes a variable. -/
def unset (e : Environment) (name : String) : Environment :=
  ⟨e.entries.filter fun p => p.1 ≠ name⟩

/-- Sets a variable to a sequence of bytes. -/
def setBytes (e : Environment) (name : String) (bytes : List UInt8) : Environment :=
  ⟨(name, bytes) :: (e.unset name).entries⟩

/-- Sets a variable to a text. -/
def set (e : Environment) (name text : String) : Environment :=
  e.setBytes name text.toUTF8.toList

/-- The value of a variable. -/
def bytes? (e : Environment) (name : String) : Option (List UInt8) := e.entries.lookup name

/-- The value of a variable, if it is set and a text. -/
def text? (e : Environment) (name : String) : Option String :=
  (e.bytes? name).bind Text.Utf8.decode?

end Environment

end SnapshotPlan
