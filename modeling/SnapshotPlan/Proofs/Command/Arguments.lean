import SnapshotPlan.Command.Options

/-!
# One more option in front

Arguments that are accepted stay so if an option that they do not give is put in front of them, with
a value that can be read.  Nothing else changes: the options keep their order, so what is found is
found as before.

## What is here

* `sort_cons` — **what is sorted out later stands behind.**
* `Given.options?_eq_some_iff` — the options, one by one.
* `word_of_readBelow?` — a number is no option.
* `Limit` — what can be limited by an option, or by an environment variable.
* `read_cons_cons` — **an option put in front is read, and nothing else changes.**
-/

set_option autoImplicit false

namespace SnapshotPlan

namespace Options

/-! ## Sorting

What has been sorted out is carried along, and an option may be waiting for its value.  The
induction is on the arguments, with both left open. -/

/-- What is found, with one option in front. -/
def Given.cons (option : Setting × Option String) (g : Given) : Given :=
  { g with settings := option :: g.settings }

/-- Where sorting ends, with one option in front. -/
def Sorted.cons (option : Setting × Option String) : Sorted → Sorted
  | .given g => .given (g.cons option)
  | .help => .help
  | .version => .version
  | .refused => .refused

/-- What is found once an option has been given up on that waited for its value. -/
def Given.without (g : Given) : Option Setting → Given
  | some s => g.note s none
  | none => g

/-- An argument that is no value makes a waiting option go without. -/
theorem sort_of_ne_plain {arg : String} (h : word arg ≠ .plain) (g : Given)
    (awaiting : Option Setting) (args : List String) :
    sort g awaiting (arg :: args) = sort (g.without awaiting) none (arg :: args) := by
  cases awaiting with
  | none => rfl
  | some s =>
    simp only [sort, Given.without]
    cases hword : word arg with
    | plain => exact absurd hword h
    | setting _ value => cases value <;> rfl
    | _ => rfl

/-- **What is sorted out later stands behind.** -/
theorem sort_cons (option : Setting × Option String) (args : List String) :
    ∀ (g : Given) (awaiting : Option Setting),
      sort (g.cons option) awaiting args = (sort g awaiting args).cons option := by
  induction args with
  | nil => intro g awaiting; cases awaiting <;> rfl
  | cons arg args ih =>
    intro g awaiting
    by_cases hplain : word arg = .plain
    · cases awaiting with
      | none => simp only [sort, hplain, Sorted.cons]
      | some s =>
        simp only [sort, hplain]
        exact ih (g.note s (some arg)) none
    · -- Once a waiting option has gone without, none is waiting any more.
      have hwithout : (g.cons option).without awaiting = (g.without awaiting).cons option := by
        cases awaiting <;> rfl
      rw [sort_of_ne_plain hplain, sort_of_ne_plain hplain g, hwithout]
      generalize g.without awaiting = g
      simp only [sort]
      cases word arg with
      | plain => rfl
      | stop => cases args <;> rfl
      | printModel => exact ih { g with switches := g.switches + 1 } none
      | setting s value =>
        cases value with
        | none => exact ih g (some s)
        | some value => exact ih (g.note s (some value)) none
      | _ => rfl

/-! ## Reading the values -/

namespace Given

variable {α : Type} {g : Given} {s s' : Setting} {parse : String → Option α}

theorem text?_cons_of_ne (h : s ≠ s') (value : Option String) :
    (g.cons (s, value)).text? s' = g.text? s' := by
  rw [text?, cons, List.filter_cons_of_neg (by simpa using h), text?]

/-- An option that is not given, and has no default, has its value once it is put in front. -/
theorem text?_cons_self (h : g.text? s = some none) (text : String) :
    (g.cons (s, some text)).text? s = some (some text) := by
  have hnone : g.settings.filter (fun q => q.1 = s) = [] := by
    rw [text?] at h
    split at h
    · assumption
    · next value _ =>
      cases hvalue : value.or s.default? <;> rw [hvalue] at h <;> cases h
    · cases h
  rw [text?, cons, List.filter_cons_of_pos (by simp), hnone]
  rfl

theorem read?_eq_some_none_iff : g.read? s parse = some none ↔ g.text? s = some none := by
  rw [read?]
  rcases g.text? s with _ | _ | text
  · exact iff_of_false nofun nofun
  · exact iff_of_true rfl rfl
  · cases h : parse text <;> simp [h]

theorem read?_cons_of_ne (h : s ≠ s') (value : Option String) :
    (g.cons (s, value)).read? s' parse = g.read? s' parse := by
  rw [read?, text?_cons_of_ne h, read?]

theorem read?_cons_self (h : g.read? s parse = some none) {text : String} {v : α}
    (hv : parse text = some v) : (g.cons (s, some text)).read? s parse = some (some v) := by
  rw [read?, text?_cons_self (read?_eq_some_none_iff.1 h)]
  exact congrArg (Option.map some) hv

/-- **The options, one by one.** -/
theorem options?_eq_some_iff {o : Options} : g.options? = some o ↔
    g.read? .blocks (Text.readBelow? UInt64.size) = some (some o.blocks) ∧
    g.read? .maxVariables Scalar.read? = some o.maxVariables ∧
    g.read? .expectedClauses Scalar.read? = some o.expectedClauses ∧
    g.read? .timeout Scalar.read? = some o.timeoutSecs ∧
    g.read? .dimacs some = some o.dimacs ∧
    g.read? .logLevel LogLevel.read? = some (some o.logLevel) ∧
    g.switches ≤ 1 ∧ (g.switches == 1) = o.printModel := by
  simp only [options?, Option.bind_eq_bind, Option.bind_eq_some_iff]
  constructor
  · rintro ⟨_, hblocks, blocks, rfl, _, hmax, _, hexpected, _, htimeout, _, hdimacs, _, hlevel, _,
      rfl, h⟩
    split at h
    · cases h
    · next hswitches =>
      cases h
      exact ⟨hblocks, hmax, hexpected, htimeout, hdimacs, hlevel, Nat.not_lt.1 hswitches, rfl⟩
  · rintro ⟨hblocks, hmax, hexpected, htimeout, hdimacs, hlevel, hswitches, hprint⟩
    refine ⟨_, hblocks, _, rfl, _, hmax, _, hexpected, _, htimeout, _, hdimacs, _, hlevel, _, rfl,
      ?_⟩
    rw [if_neg (Nat.not_lt.2 hswitches), hprint]

end Given

/-! ## Numbers among the arguments -/

theorem word_of_head {arg : String} (h : arg.toList.head? ≠ some '-') : word arg = .plain := by
  rw [word]
  split
  · next heq => exact absurd (congrArg List.head? heq) h
  · next heq => exact absurd (congrArg List.head? heq) h
  · next heq => exact absurd (congrArg List.head? heq) h
  · rfl

/-- **A number is no option.** -/
theorem word_of_readBelow? {bound n : Nat} {text : String}
    (h : Text.readBelow? bound text = some n) : word text = .plain := by
  refine word_of_head fun hhead => ?_
  obtain ⟨cs, hcs⟩ := List.head?_eq_some_iff.1 hhead
  rw [Text.readBelow?, hcs] at h
  cases h

end Options

/-! ## Limits

The three limits have much in common, so they are treated as one thing with three values: each
has an option, a variable and a place in the options and in the configuration. -/

/-- What can be limited by an option, or by an environment variable. -/
inductive Limit where
  | maxVariables
  | expectedClauses
  | timeout
  deriving DecidableEq

namespace Limit

/-- The option that sets the limit. -/
def setting : Limit → Setting
  | maxVariables => .maxVariables
  | expectedClauses => .expectedClauses
  | timeout => .timeout

/-- The argument before the value of the option. -/
def flag (l : Limit) : String := "--" ++ l.setting.long

/-- The environment variable that sets the limit. -/
def variableName : Limit → String
  | maxVariables => "SATPLAN_MAX_VARIABLES"
  | expectedClauses => "SATPLAN_EXPECTED_CLAUSES"
  | timeout => "SATPLAN_TIMEOUT_SECS"

/-- The limit is not among the options. -/
def IsOpen (o : Options) : Limit → Prop
  | maxVariables => o.maxVariables = none
  | expectedClauses => o.expectedClauses = none
  | timeout => o.timeoutSecs = none

/-- The options with the limit that a text stands for. -/
def give? (o : Options) (text : String) : Limit → Option Options
  | maxVariables => (Scalar.read? text).map fun v => { o with maxVariables := some v }
  | expectedClauses => (Scalar.read? text).map fun v => { o with expectedClauses := some v }
  | timeout => (Scalar.read? text).map fun v => { o with timeoutSecs := some v }

/-- The text stands for a timeout of no seconds. -/
def Unlimited (text : String) : Limit → Prop
  | timeout => Scalar.read? text = some (0 : UInt64)
  | _ => False

end Limit

namespace Options

variable {l : Limit} {o given : Options} {text : String}

theorem word_flag (l : Limit) : word l.flag = .setting l.setting none := by
  cases l <;> decide

theorem word_of_give? (h : l.give? o text = some given) : word text = .plain := by
  cases l <;> obtain ⟨v, hv, -⟩ := Option.map_eq_some_iff.1 h <;>
    obtain ⟨n, hn, -⟩ := Option.map_eq_some_iff.1 hv <;> exact word_of_readBelow? hn

/-- The option in front is found, and everything else as before. -/
theorem options?_cons {g : Given} (hg : g.options? = some o) (hopen : l.IsOpen o)
    (h : l.give? o text = some given) : (g.cons (l.setting, some text)).options? = some given := by
  rw [Given.options?_eq_some_iff] at hg
  obtain ⟨hblocks, hmax, hexpected, htimeout, hdimacs, hlevel, hswitches⟩ := hg
  have hother : ∀ {s : Setting} {α : Type} {parse : String → Option α} {r}, g.read? s parse = r →
      l.setting ≠ s → (g.cons (l.setting, some text)).read? s parse = r :=
    fun hr hs => (Given.read?_cons_of_ne hs _).trans hr
  rw [Given.options?_eq_some_iff]
  cases l with
  | maxVariables =>
    obtain ⟨v, hv, rfl⟩ := Option.map_eq_some_iff.1 h
    rw [show o.maxVariables = none from hopen] at hmax
    exact ⟨hother hblocks nofun, Given.read?_cons_self hmax hv, hother hexpected nofun,
      hother htimeout nofun, hother hdimacs nofun, hother hlevel nofun, hswitches⟩
  | expectedClauses =>
    obtain ⟨v, hv, rfl⟩ := Option.map_eq_some_iff.1 h
    rw [show o.expectedClauses = none from hopen] at hexpected
    exact ⟨hother hblocks nofun, hother hmax nofun, Given.read?_cons_self hexpected hv,
      hother htimeout nofun, hother hdimacs nofun, hother hlevel nofun, hswitches⟩
  | timeout =>
    obtain ⟨v, hv, rfl⟩ := Option.map_eq_some_iff.1 h
    rw [show o.timeoutSecs = none from hopen] at htimeout
    exact ⟨hother hblocks nofun, hother hmax nofun, hother hexpected nofun,
      Given.read?_cons_self htimeout hv, hother hdimacs nofun, hother hlevel nofun, hswitches⟩

/-- **An option put in front is read, and nothing else changes.** -/
theorem read_cons_cons {args : List String} (hargs : read args = some (.run o))
    (hopen : l.IsOpen o) (h : l.give? o text = some given) :
    read (l.flag :: text :: args) = some (.run given) := by
  have hsort : sort ⟨[], 0⟩ none (l.flag :: text :: args) =
      (sort ⟨[], 0⟩ none args).cons (l.setting, some text) := by
    rw [← sort_cons]
    simp only [sort, word_flag, word_of_give? h]
    rfl
  rw [read] at hargs ⊢
  rw [hsort]
  cases hsorted : sort ⟨[], 0⟩ none args with
  | given g =>
    rw [hsorted] at hargs
    obtain ⟨o', hg, hrun⟩ := Option.map_eq_some_iff.1 hargs
    cases hrun
    exact congrArg (Option.map Request.run) (options?_cons hg hopen h)
  | _ =>
    rw [hsorted] at hargs
    cases hargs

end Options
end SnapshotPlan
