import SnapshotPlan.Command.Run
import SnapshotPlan.Proofs.Command.Arguments
import SnapshotPlan.Proofs.Settings.Decision

/-!
# Configuring by option and by environment

Each limit of a run can be given by an option or by an environment variable, and the option counts
if there are both.  It should not matter which way a value is given.  With one value it does: no
seconds at all are no limit for the variable, and a limit that has run out for the option.

## What is here

* `configuration`, `run_eq` — the configuration of a run, which is all that it takes from the
  environment.
* `Settles` — what a limit is set to: by the option, else by the variable, else to the default.
* `configuration_give_iff` — **an option and a variable with one text configure alike, unless that
  is a timeout of no seconds.**
* `configuration_settled` — all of it in one statement.
-/

set_option autoImplicit false

namespace SnapshotPlan.Command

open PlannerParameters

/-! ## The configuration of a run -/

/-- The configuration of a run with these options, in an environment. -/
def configuration (options : Options) (env : Environment) : Except ParameterFault Config :=
  (fresh.config env).1.map (configure options)

/-- **The configuration is all that a run takes from the environment.** -/
theorem run_eq {m : Type → Type} [Monad m] (search : TimedSearch m) (options : Options)
    (env : Environment) : run search options env =
    match configuration options env with
    | .error fault => ⟨none, pure (.failure fault.message)⟩
    | .ok config =>
      match Blocks.generate options.blocks with
      | .error stop => ⟨none, pure (.stopped stop)⟩
      | .ok p => respond search p options config := by
  rw [run, configuration]
  cases (fresh.config env).1 <;> rfl

section Settles

variable {α : Type} [Scalar α]

/-- What a limit is set to, given the value of its option, the bytes of its variable and its
default. -/
inductive Settles (option : Option α) (bytes : Option (List UInt8)) (default : α) : α → Prop
  | option {v : α} (given : option = some v) : Settles option bytes default v
  | environment {text : String} {v : α} (missing : option = none)
      (set : bytes = some text.toUTF8.toList) (readable : Scalar.read? text = some v) :
      Settles option bytes default v
  | default (missing : option = none) (unreadable : Parameter.Unreadable α bytes) :
      Settles option bytes default default

/-- The value of a variable, or a default if it is not set, not a text or not readable. -/
def valueOf (env : Environment) (name : String) (default : α) : α :=
  ((env.text? name).bind Scalar.read?).getD default

/-- **A limit is set to exactly one value.** -/
theorem settles_iff {option : Option α} {env : Environment} {name : String} {default v : α} :
    Settles option (env.bytes? name) default v ↔ option.getD (valueOf env name default) = v := by
  rcases option with _ | given
  · rw [Option.getD_none, valueOf]
    rcases hfound : (env.text? name).bind (Scalar.read? (α := α)) with _ | u
    · rw [Option.getD_none]
      constructor
      · rintro (hgiven | ⟨-, hset, hread⟩ | -)
        · cases hgiven
        · rw [Environment.text?_eq_some_iff.2 hset, Option.bind_some, hread] at hfound
          cases hfound
        · rfl
      · rintro rfl
        refine .default rfl fun text hset => ?_
        rwa [Environment.text?_eq_some_iff.2 hset, Option.bind_some] at hfound
    · obtain ⟨text, htext, hread⟩ := Option.bind_eq_some_iff.1 hfound
      rw [Option.getD_some]
      constructor
      · rintro (hgiven | ⟨-, hset, hread'⟩ | ⟨-, hunreadable⟩)
        · cases hgiven
        · rw [Environment.text?_eq_some_iff.2 hset, Option.bind_some, hread'] at hfound
          exact (Option.some.inj hfound).symm
        · rw [hunreadable text (Environment.text?_eq_some_iff.1 htext)] at hread
          cases hread
      · rintro rfl
        exact .environment rfl (Environment.text?_eq_some_iff.1 htext) hread
  · rw [Option.getD_some]
    constructor
    · rintro (hgiven | ⟨hmissing, -, -⟩ | ⟨hmissing, -⟩)
      · exact Option.some.inj hgiven
      · cases hmissing
      · cases hmissing
    · rintro rfl
      exact .option rfl

theorem get_undecided {name text : String} {default : α} (h : Scalar.read? text = some default)
    (env : Environment) :
    ((Parameter.undecided name text).get env).1 = .ok (valueOf env name default) := by
  have hconsult : (Parameter.undecided name text).consult env = .ok (valueOf env name default) := by
    rw [valueOf]
    rcases hfound : (env.text? name).bind (Scalar.read? (α := α)) with _ | v <;>
      simp only [Parameter.consult, Parameter.undecided, hfound, h, Option.getD_none,
        Option.getD_some]
  rw [Parameter.get]
  simp only [Parameter.undecided] at hconsult ⊢
  rw [hconsult]

end Settles

/-- The timeout, given the option and the seconds of the variable. -/
def timeoutOf : Option UInt64 → UInt64 → Option Duration
  | some secs, _ => some (.ofSecs secs.toNat)
  | none, secs => timeLimit secs

theorem configure_eq (options : Options) (maxVariables : UInt32) (expectedClauses secs : UInt64) :
    configure options ⟨maxVariables, expectedClauses, timeLimit secs⟩ =
      ⟨options.maxVariables.getD maxVariables, options.expectedClauses.getD expectedClauses,
        timeoutOf options.timeoutSecs secs⟩ := by
  obtain ⟨_, _, _, _ | _, _, _, _⟩ := options <;> rfl

/-- The configuration, limit by limit. -/
theorem configuration_eq (options : Options) (env : Environment) : configuration options env =
    .ok { maxVariables := options.maxVariables.getD (valueOf env "SATPLAN_MAX_VARIABLES" 1000000)
          expectedClauses :=
            options.expectedClauses.getD (valueOf env "SATPLAN_EXPECTED_CLAUSES" 500000)
          timeout := timeoutOf options.timeoutSecs (valueOf env "SATPLAN_TIMEOUT_SECS" 0) } := by
  have hmax : (fresh.maxVariables.get env).1 = .ok (valueOf env "SATPLAN_MAX_VARIABLES" 1000000) :=
    get_undecided (by decide +kernel) env
  have hexpected : (fresh.expectedClauses.get env).1 =
      .ok (valueOf env "SATPLAN_EXPECTED_CLAUSES" 500000) := get_undecided (by decide +kernel) env
  have hsecs : (fresh.timeoutSecs.get env).1 = .ok (valueOf env "SATPLAN_TIMEOUT_SECS" 0) :=
    get_undecided (by decide +kernel) env
  simp only [configuration, PlannerParameters.config, hmax, hexpected, hsecs]
  exact congrArg Except.ok (configure_eq options _ _ _)

/-! ## One value, given either way -/

theorem valueOf_set {α : Type} [Scalar α] (env : Environment) (changed text name : String)
    (default : α) : valueOf (env.set changed text) name default =
      if changed = name then (Scalar.read? text).getD default else valueOf env name default := by
  rw [valueOf, Environment.text?_set]
  split <;> rfl

/-- No seconds are no limit, and any other number is that limit. -/
theorem timeLimit_eq_iff {secs : UInt64} :
    timeLimit secs = some (.ofSecs secs.toNat) ↔ secs ≠ 0 := by
  rw [timeLimit]
  split
  · next h => exact iff_of_false nofun (not_not.2 h)
  · next h => exact iff_of_true rfl h

/-- The option and the variable mean the same by a number of seconds, unless the option is none at
all. -/
theorem timeoutOf_eq_iff {option : Option UInt64} {secs : UInt64} :
    timeoutOf option secs = timeLimit (option.getD secs) ↔ option ≠ some 0 := by
  cases option with
  | none => exact iff_of_true rfl nofun
  | some given =>
    rw [timeoutOf, Option.getD_some, eq_comm, timeLimit_eq_iff, Ne, Ne, Option.some_inj]

variable {limit : Limit} {options given : Options} {text : String}

/-- **An option and a variable with one text configure alike, unless that is a timeout of no
seconds.** -/
theorem configuration_give_iff (hopen : limit.IsOpen options)
    (h : limit.give? options text = some given) (env : Environment) :
    configuration given env = configuration options (env.set limit.variableName text) ↔
      ¬ limit.Unlimited text := by
  rw [configuration_eq, configuration_eq]
  cases limit with
  | maxVariables =>
    obtain ⟨v, hv, rfl⟩ := Option.map_eq_some_iff.1 h
    refine iff_of_true ?_ id
    simp only [valueOf_set, Limit.variableName, show options.maxVariables = none from hopen, hv]
    rfl
  | expectedClauses =>
    obtain ⟨v, hv, rfl⟩ := Option.map_eq_some_iff.1 h
    refine iff_of_true ?_ id
    simp only [valueOf_set, Limit.variableName, show options.expectedClauses = none from hopen, hv]
    rfl
  | timeout =>
    obtain ⟨v, hv, rfl⟩ := Option.map_eq_some_iff.1 h
    have hunlimited : Limit.Unlimited text .timeout ↔ v = 0 := by
      rw [Limit.Unlimited, hv, Option.some.injEq]
    rw [hunlimited, ← Ne, ← timeLimit_eq_iff]
    simp only [valueOf_set, Limit.variableName, show options.timeoutSecs = none from hopen, hv,
      String.reduceEq, if_true, if_false, Option.getD_some, Except.ok.injEq, Config.mk.injEq,
      true_and]
    exact eq_comm

/-- **The whole run is the same**, whichever way the value is given. -/
theorem run_give (hopen : limit.IsOpen options) (h : limit.give? options text = some given)
    (hlimited : ¬ limit.Unlimited text) (env : Environment) {m : Type → Type} [Monad m]
    (search : TimedSearch m) :
    run search given env = run search options (env.set limit.variableName text) := by
  have hconfig := (configuration_give_iff hopen h env).2 hlimited
  rw [run_eq, run_eq, hconfig]
  cases limit <;> obtain ⟨v, hv, rfl⟩ := Option.map_eq_some_iff.1 h <;> rfl

/-! ## In one statement -/

/-- **Every limit is set by its option, else by its variable, else to its default**, and a value
does the same whichever way it is given, unless it is a timeout of no seconds.  There is always a
configuration.  Each limit is settled apart from the others; the timeout is the limit of the seconds
settled on, except that an option of no seconds is a limit that has run out.  An option for a limit
that is open can be put in front of the arguments; the run is then the same as without the option
and with the variable set to its text, except for a timeout of no seconds.  This is so whatever a
timed search does. -/
theorem configuration_settled (options : Options) (env : Environment) :
    (∃ config, configuration options env = .ok config ∧
      (∀ v, Settles options.maxVariables (env.bytes? "SATPLAN_MAX_VARIABLES") 1000000 v ↔
        config.maxVariables = v) ∧
      (∀ v, Settles options.expectedClauses (env.bytes? "SATPLAN_EXPECTED_CLAUSES") 500000 v ↔
        config.expectedClauses = v) ∧
      ∃ secs,
        (∀ v, Settles options.timeoutSecs (env.bytes? "SATPLAN_TIMEOUT_SECS") 0 v ↔ secs = v) ∧
        (config.timeout = timeLimit secs ↔ options.timeoutSecs ≠ some 0) ∧
        (options.timeoutSecs = some 0 → config.timeout = some (.ofSecs 0))) ∧
    ∀ (limit : Limit) (text : String) (given : Options), limit.IsOpen options →
      limit.give? options text = some given →
        (∀ args, Options.read args = some (.run options) →
          Options.read (limit.flag :: text :: args) = some (.run given)) ∧
        (configuration given env = configuration options (env.set limit.variableName text) ↔
          ¬ limit.Unlimited text) ∧
        (¬ limit.Unlimited text → ∀ {m : Type → Type} [Monad m] (search : TimedSearch m),
          run search given env = run search options (env.set limit.variableName text)) := by
  refine ⟨⟨_, configuration_eq options env, fun v => settles_iff, fun v => settles_iff, _,
    fun v => settles_iff, ?_, ?_⟩, fun limit text given hopen h =>
      ⟨fun args hargs => Options.read_cons_cons hargs hopen h, configuration_give_iff hopen h env,
        fun hlimited => run_give hopen h hlimited env⟩⟩
  · exact timeoutOf_eq_iff
  · intro hzero
    rw [hzero]
    rfl

/-- Two blocks, and nothing else said. -/
def bare : Options := ⟨2, none, none, none, none, false, .info⟩

/-- An environment with a limit, a text that is no number, and no seconds. -/
def partialEnvironment : Environment :=
  ((Environment.empty.set "SATPLAN_MAX_VARIABLES" "+050").set "SATPLAN_EXPECTED_CLAUSES" "many").set
    "SATPLAN_TIMEOUT_SECS" "0"

/-- One limit from a variable, one by default, and a timeout given either way. -/
theorem configuration_settled_seconds :
    configuration bare partialEnvironment = .ok ⟨50, 500000, none⟩ ∧
      Options.read ["--timeout", "05", "-b", "2"] =
        some (.run { bare with timeoutSecs := some 5 }) ∧
      ∀ search : TimedSearch Id,
        run search { bare with timeoutSecs := some 5 } partialEnvironment =
          run search bare (partialEnvironment.set "SATPLAN_TIMEOUT_SECS" "05") := by
  obtain ⟨⟨config, hconfig, hmax, hexpected, secs, hsecs, hlimit, -⟩, hgive⟩ :=
    configuration_settled bare partialEnvironment
  have hmany : Parameter.Unreadable UInt64
      (partialEnvironment.bytes? "SATPLAN_EXPECTED_CLAUSES") := fun text hset => by
    have htext : partialEnvironment.text? "SATPLAN_EXPECTED_CLAUSES" = some "many" := by
      decide +kernel
    rw [Environment.text?_eq_some_iff.2 hset] at htext
    cases htext
    decide +kernel
  have hfifty : partialEnvironment.bytes? "SATPLAN_MAX_VARIABLES" =
      some "+050".toUTF8.toList := Environment.text?_eq_some_iff.1 (by decide +kernel)
  have hzero : partialEnvironment.bytes? "SATPLAN_TIMEOUT_SECS" = some "0".toUTF8.toList :=
    Environment.text?_eq_some_iff.1 (by decide +kernel)
  have hmax' := (hmax 50).1 (.environment rfl hfifty (by decide +kernel))
  have hexpected' := (hexpected 500000).1 (.default rfl hmany)
  obtain rfl := (hsecs 0).1 (.environment rfl hzero (by decide +kernel))
  have htimeout : config.timeout = none := hlimit.2 nofun
  obtain ⟨hread, -, hrun⟩ := hgive .timeout "05" { bare with timeoutSecs := some 5 } rfl
    (by decide +kernel)
  refine ⟨?_, hread ["-b", "2"] (by decide +kernel), hrun ?_⟩
  · rw [hconfig, ← hmax', ← hexpected', ← htimeout]
  · show ¬ Scalar.read? "05" = some (0 : UInt64)
    decide +kernel

/-- **No seconds are no limit for the variable, but one for the option.** -/
theorem configuration_no_seconds :
    Options.read ["-b", "2"] = some (.run bare) ∧
      Options.read ["--timeout", "0", "-b", "2"] = some (.run { bare with timeoutSecs := some 0 }) ∧
      configuration bare (Environment.empty.set "SATPLAN_TIMEOUT_SECS" "0") =
        .ok ⟨1000000, 500000, none⟩ ∧
      configuration { bare with timeoutSecs := some 0 } .empty =
        .ok ⟨1000000, 500000, some (.ofSecs 0)⟩ := by
  rw [configuration_eq, configuration_eq]
  decide +kernel

end SnapshotPlan.Command
