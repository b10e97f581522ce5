import SnapshotPlan.Settings.Scalar

/-!
# Command line options

The command takes options with a value and switches without one, and nothing else.

## The rules

* A long option is two or more minus signs and its name; a value may follow after `=`, and stands
  in the next argument otherwise.  A value after the name of a switch is ignored.
* A short option is a minus sign and a letter; its value may follow in the same argument, perhaps
  after `=`, and stands in the next argument otherwise.
* Equal signs in front of a value are not part of it.
* An argument that starts with a minus sign is never the value of the one before it, unless it is
  a minus sign alone.  After the argument `--` no option is recognised.
* No option may be given twice.  An option without its value is refused if it has no default.
* Help and version are answered as soon as they are met.

`Options.read` is the whole: arguments to a `Request`, or nothing where they are refused.
-/

set_option autoImplicit false

namespace SnapshotPlan

/-! ## Options and their values -/

/-- How much to log. -/
inductive LogLevel where
  | error
  | warn
  | info
  | debug
  | trace
  deriving DecidableEq

/-- A level is written as a number from one (errors only) to five, or by name in any case. -/
def LogLevel.read? (s : String) : Option LogLevel :=
  match Text.readBelow? UInt64.size s with
  | some 1 => some .error
  | some 2 => some .warn
  | some 3 => some .info
  | some 4 => some .debug
  | some 5 => some .trace
  | _ =>
    let name := String.ofList (s.toList.map Char.toLower)
    [("error", error), ("warn", warn), ("info", info), ("debug", debug), ("trace", trace)].lookup
      name

/-- The options that take a value. -/
inductive Setting where
  | blocks
  | maxVariables
  | expectedClauses
  | timeout
  | dimacs
  | logLevel
  deriving DecidableEq

/-- All options with a value. -/
def Setting.all : List Setting :=
  [blocks, maxVariables, expectedClauses, timeout, dimacs, logLevel]

/-- The long name of an option. -/
def Setting.long : Setting → String
  | blocks => "blocks"
  | maxVariables => "max-variables"
  | expectedClauses => "expected-clauses"
  | timeout => "timeout"
  | dimacs => "dimacs"
  | logLevel => "log-level"

/-- The letter of an option, if it has one. -/
def Setting.short? : Setting → Option Char
  | blocks => some 'b'
  | timeout => some 't'
  | logLevel => some 'l'
  | _ => none

/-- The text that stands in for a missing value. -/
def Setting.default? : Setting → Option String
  | blocks => some "3"
  | logLevel => some "info"
  | _ => none

/-- What the command is to do. -/
structure Options where
  blocks : Nat
  maxVariables : Option UInt32
  expectedClauses : Option UInt64
  timeoutSecs : Option UInt64
  dimacs : Option String
  printModel : Bool
  logLevel : LogLevel
  deriving DecidableEq

/-- What the arguments ask for. -/
inductive Request where
  | run (options : Options)
  | help
  | version
  deriving DecidableEq

namespace Options

/-! ## Sorting the arguments

The arguments are gone through once, from the left.  An option may bring its value along or wait
for the next argument, which it does not get if that looks like an option itself. -/

/-- The options found, in the order of the arguments; a value may be missing. -/
structure Given where
  settings : List (Setting × Option String)
  switches : Nat

/-- What one argument is. -/
inductive Word where
  | setting (s : Setting) (value : Option String)
  | printModel
  | help
  | version
  /-- The mark after which no option is recognised. -/
  | stop
  /-- Anything that is not an option. -/
  | plain
  /-- An option that does not exist. -/
  | unknown
  deriving DecidableEq

/-- The text without the equal signs in front of it. -/
def dropEquals (cs : List Char) : String := String.ofList (cs.dropWhile (· == '='))

/-- A long option, given without its minus signs. -/
def longWord (cs : List Char) : Word :=
  let name := String.ofList (cs.takeWhile (· != '='))
  let value := match cs.dropWhile (· != '=') with
    | [] => none
    | _ :: rest => some (dropEquals rest)
  match Setting.all.find? fun s => s.long == name with
  | some s => .setting s value
  | none =>
    if name == "print-model" then .printModel
    else if name == "help" then .help
    else if name == "version" then .version
    else .unknown

/-- A short option, given without its minus sign. -/
def shortWord : List Char → Word
  | [] => .plain
  | c :: rest =>
    match Setting.all.find? fun s => s.short? == some c with
    | some s => .setting s (if rest.isEmpty then none else some (dropEquals rest))
    | none => if c == 'h' then .help else if c == 'V' then .version else .unknown

/-- What an argument is by itself. -/
def word (arg : String) : Word :=
  match arg.toList with
  | ['-', '-'] => .stop
  | '-' :: '-' :: rest => longWord (rest.dropWhile (· == '-'))
  | '-' :: c :: rest => shortWord (c :: rest)
  | _ => .plain

/-- Where sorting the arguments ends. -/
inductive Sorted where
  | given (g : Given)
  | help
  | version
  | refused

/-- Adds an option, with its value if that is known, after those found so far. -/
def Given.note (g : Given) (s : Setting) (value : Option String) : Given :=
  { g with settings := g.settings ++ [(s, value)] }

/-- Sorts the arguments; `awaiting` is the option whose value comes next. -/
def sort (g : Given) (awaiting : Option Setting) : List String → Sorted
  | [] => .given (match awaiting with
    | some s => g.note s none
    | none => g)
  | arg :: args =>
    let missing := match awaiting with
      | some s => g.note s none
      | none => g
    match word arg with
    | .plain =>
      match awaiting with
      | some s => sort (g.note s (some arg)) none args
      | none => .refused
    | .stop => if args.isEmpty then .given missing else .refused
    | .help => .help
    | .version => .version
    | .unknown => .refused
    | .printModel => sort { missing with switches := missing.switches + 1 } none args
    | .setting s (some value) => sort (missing.note s (some value)) none args
    | .setting s none => sort missing (some s) args

/-! ## Reading the values -/

/-- The text given for an option: its value, else its default.  Nothing if the option is given
twice, or without a value and default. -/
def Given.text? (g : Given) (s : Setting) : Option (Option String) :=
  match g.settings.filter fun p => p.1 = s with
  | [] => some s.default?
  | [(_, value)] => (value.or s.default?).map some
  | _ => none

/-- The value of an option that may be absent. -/
def Given.read? {α : Type} (g : Given) (s : Setting) (parse : String → Option α) :
    Option (Option α) :=
  (g.text? s).bind fun
    | none => some none
    | some text => (parse text).map some

/-- The options that the arguments give. -/
def Given.options? (g : Given) : Option Options := do
  let blocks ← (← g.read? .blocks (Text.readBelow? UInt64.size))
  let maxVariables ← g.read? .maxVariables Scalar.read?
  let expectedClauses ← g.read? .expectedClauses Scalar.read?
  let timeoutSecs ← g.read? .timeout Scalar.read?
  let dimacs ← g.read? .dimacs some
  let logLevel ← (← g.read? .logLevel LogLevel.read?)
  if 1 < g.switches then none
  else
    let printModel := g.switches == 1
    some { blocks, maxVariables, expectedClauses, timeoutSecs, dimacs, printModel, logLevel }

/-- What the arguments ask for, unless they are refused. -/
def read (args : List String) : Option Request :=
  match sort ⟨[], 0⟩ none args with
  | .given g => g.options?.map .run
  | .help => some .help
  | .version => some .version
  | .refused => none

end Options

end SnapshotPlan
