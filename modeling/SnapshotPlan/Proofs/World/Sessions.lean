import Mathlib.Data.List.Induction
import SnapshotPlan.Proofs.World.Calls

/-!
# What a builder keeps in the course of a session

A session is a series of calls on a builder that was blank to begin with.  Any of the calls may be
refused, and the session goes on all the same.  The record of a session lists the calls with what
came of each, and it determines the problem that is built: this file says how.

## What is here

* `Builder.Record.Describes` — the problem is what the record says.  `describes_step`: a call keeps
  it so, and `describes_session`: it is so after every session.
* `Builder.Leads` — what the rules for single calls make of a problem, call by call, and
  `session_of_leads`: a session keeps to them.
* `Builder.fluentId_session_append` — a name that has been found keeps its number.
* `Builder.session_accounted` — **every session is accounted for by its record.**
-/

set_option autoImplicit false

namespace SnapshotPlan
namespace Builder

variable {c : Call}

/-! ## The record of a session

Fluents, actions, initial state and goal are each read off the record by a filter.  A refused
call passes none of the filters and a granted one at most one, which is all that a single call
has to be checked for. -/

/-- Calls in order, with what came of each. -/
abbrev Record := List (Call × Except ProblemError Reply)

namespace Record

/-- The fluent that an entry declares, with the number in the reply. -/
def fluent? : Call × Except ProblemError Reply → Option (String × FluentId)
  | (.addFluent name, .ok (.fluent f)) => some (name, f)
  | _ => none

/-- The action that an entry adds, with the number in the reply. -/
def action? : Call × Except ProblemError Reply → Option (Action × ActionId)
  | (.addAction a, .ok (.action id)) => some (a, id)
  | _ => none

/-- The initial state that an entry sets. -/
def initial? : Call × Except ProblemError Reply → Option InitialState
  | (.setInitial init, .ok .done) => some init
  | _ => none

/-- The goal that an entry sets. -/
def goal? : Call × Except ProblemError Reply → Option Condition
  | (.setGoal goal, .ok .done) => some goal
  | _ => none

/-- The problem is what the granted calls of the record make of a blank one. -/
structure Describes (t : Record) (p : Problem) : Prop where
  /-- The fluents are those declared, in order, and each has been given the number of its place. -/
  fluents_eq : t.filterMap fluent? = p.fluents.toList.zipIdx.map fun q => (q.1, .ofNat q.2)
  /-- The actions are those added, in order, and each has been given the number of its place. -/
  actions_eq : t.filterMap action? = p.actions.toList.zipIdx.map fun q => (q.1, .ofNat q.2)
  /-- The initial state is the one set last. -/
  initial_eq : (t.filterMap initial?).getLast?.getD .empty = p.initial
  /-- The goal is the one set last. -/
  goal_eq : (t.filterMap goal?).getLast?.getD .empty = p.goal

variable {t : Record} {p p' : Problem} {reply : Reply}

theorem describes_nil : Describes [] .empty := ⟨rfl, rfl, rfl, rfl⟩

theorem filterMap_append_of_none {α : Type} {f : Call × Except ProblemError Reply → Option α}
    (t : Record) {entry : Call × Except ProblemError Reply} (h : f entry = none) :
    (t ++ [entry]).filterMap f = t.filterMap f := by
  rw [List.filterMap_append, List.filterMap_cons_none h, List.filterMap_nil, List.append_nil]

/-- A refused call changes nothing in what the record describes. -/
theorem Describes.refused (h : t.Describes p) (c : Call) (e : ProblemError) :
    Describes (t ++ [(c, .error e)]) p := by
  have hskip : fluent? (c, .error e) = none ∧ action? (c, .error e) = none ∧
      initial? (c, .error e) = none ∧ goal? (c, .error e) = none := by
    cases c <;> exact ⟨rfl, rfl, rfl, rfl⟩
  obtain ⟨hf, ha, hi, hg⟩ := hskip
  constructor
  · rw [filterMap_append_of_none t hf, h.fluents_eq]
  · rw [filterMap_append_of_none t ha, h.actions_eq]
  · rw [filterMap_append_of_none t hi, h.initial_eq]
  · rw [filterMap_append_of_none t hg, h.goal_eq]

/-- **What a granted call does to the problem is what its entry says.** -/
theorem Describes.granted (h : t.Describes p) (hgrant : Granted p c reply p') :
    Describes (t ++ [(c, .ok reply)]) p' := by
  obtain ⟨hfluents, hactions, hinitial, hgoal⟩ := h
  cases hgrant with
  | addFluent fresh =>
    constructor
    · rw [List.filterMap_append, hfluents]
      simp [Problem.withFluent, fluent?, List.zipIdx_append]
    all_goals rwa [filterMap_append_of_none t rfl]
  | fluentId _ => constructor <;> rwa [filterMap_append_of_none t rfl]
  | addAction known =>
    refine ⟨?_, ?_, ?_, ?_⟩
    case refine_2 =>
      rw [List.filterMap_append, hactions]
      simp [Problem.withAction, action?, List.zipIdx_append]
    all_goals rwa [filterMap_append_of_none t rfl]
  | setInitial known =>
    refine ⟨?_, ?_, ?_, ?_⟩
    case refine_3 => rw [List.filterMap_append]; simp [Problem.withInitial, initial?]
    all_goals rwa [filterMap_append_of_none t rfl]
  | setGoal known =>
    refine ⟨?_, ?_, ?_, ?_⟩
    case refine_4 => rw [List.filterMap_append]; simp [Problem.withGoal, goal?]
    all_goals rwa [filterMap_append_of_none t rfl]

end Record

/-! ## Sessions -/

/-- One more call, with what comes of it on the record. -/
def step (s : Record × Builder) (c : Call) : Record × Builder :=
  (s.1 ++ [(c, (s.2.perform c).1)], (s.2.perform c).2)

/-- The record of the calls, made one after another on a blank builder, and the builder then. -/
def session (calls : List Call) : Record × Builder := calls.foldl step ([], blank)

variable {calls more : List Call}

theorem session_append : session (calls ++ more) = more.foldl step (session calls) :=
  List.foldl_append

theorem session_concat : session (calls ++ [c]) = step (session calls) c := session_append

theorem map_fst_session (calls : List Call) : (session calls).1.map Prod.fst = calls := by
  induction calls using List.reverseRecOn with
  | nil => rfl
  | append_singleton calls c ih => rw [session_concat, step, List.map_append, ih]; rfl

/-- A call keeps the record right. -/
theorem describes_step {s : Record × Builder} (h : s.1.Describes s.2.problem) (c : Call) :
    (step s c).1.Describes (step s c).2.problem := by
  obtain ⟨e, -, hperf⟩ | ⟨reply, p', b', hgrant, hperf, rfl⟩ := perform_cases s.2 c
  · rw [step, hperf]
    exact h.refused c e
  · rw [step, hperf]
    exact h.granted hgrant

/-- **The record of a session describes the problem.** -/
theorem describes_session (calls : List Call) :
    (session calls).1.Describes (session calls).2.problem := by
  induction calls using List.reverseRecOn with
  | nil => exact Record.describes_nil
  | append_singleton calls c ih =>
    rw [session_concat]
    exact describes_step ih c

/-! ### Sessions by the rules

The problem at hand decides whether a call is granted and what comes of it.  So a session can be
told from the rules alone, without the names that a builder keeps. -/

/-- A record that begins with one problem and ends with another: each entry says what the problem
at hand makes of the call. -/
inductive Leads : Problem → Record → Problem → Prop
  | nil (p : Problem) : Leads p [] p
  | refused {p q : Problem} {c : Call} {e : ProblemError} {t : Record} (h : Refused p c e)
      (rest : Leads p t q) : Leads p ((c, .error e) :: t) q
  | granted {p p' q : Problem} {c : Call} {reply : Reply} {t : Record} (h : Granted p c reply p')
      (rest : Leads p' t q) : Leads p ((c, .ok reply) :: t) q

theorem foldl_step_of_leads {p q : Problem} {t : Record} (h : Leads p t q) :
    ∀ {s : Record × Builder}, s.2.problem = p →
      ∃ b, b.problem = q ∧ (t.map Prod.fst).foldl step s = (s.1 ++ t, b) := by
  induction h with
  | nil p => exact fun {s} hs => ⟨s.2, hs, by rw [List.append_nil]; rfl⟩
  | @refused p q c e t h rest ih =>
    intro s hs
    obtain ⟨b, hb, ht⟩ := @ih (s.1 ++ [(c, .error e)], s.2) hs
    refine ⟨b, hb, ?_⟩
    rw [List.map_cons, List.foldl_cons, step, perform_of_refused (hs ▸ h), ht, List.append_assoc]
    rfl
  | @granted p p' q c reply t h rest ih =>
    intro s hs
    obtain ⟨b', hperf, hb'⟩ := perform_of_granted (b := s.2) (hs ▸ h)
    obtain ⟨b, hb, ht⟩ := @ih (s.1 ++ [(c, .ok reply)], b') hb'
    refine ⟨b, hb, ?_⟩
    rw [List.map_cons, List.foldl_cons, step, hperf, ht, List.append_assoc]
    rfl

/-- **A session keeps to the rules**: its record is the one that they lead to, and so is the problem
that is built. -/
theorem session_of_leads {q : Problem} {t : Record} (h : Leads .empty t q) :
    (session (t.map Prod.fst)).1 = t ∧ (session (t.map Prod.fst)).2.build = q := by
  obtain ⟨b, hb, ht⟩ := foldl_step_of_leads h (s := ([], blank)) rfl
  rw [session, ht]
  exact ⟨rfl, hb⟩

/-! ### What lasts

Fluents and actions are only ever added at the end.  So a number that has been given out stays
good, and there are never more of them than calls. -/

theorem getElem?_fluents_foldl_step {name : String} {i : Nat} (more : List Call)
    {s : Record × Builder} (h : s.2.problem.fluents[i]? = some name) :
    (more.foldl step s).2.problem.fluents[i]? = some name := by
  induction more generalizing s with
  | nil => exact h
  | cons c more ih => exact ih (getElem?_fluents_perform h c)

/-- **A name that has been found is found again** with the same number, whatever is asked in
between. -/
theorem fluentId_session_append {name : String} {f : FluentId}
    (h : (session calls).2.fluentId name = .ok f) (more : List Call) :
    (session (calls ++ more)).2.fluentId name = .ok f := by
  obtain ⟨i, hi, rfl⟩ := fluentId_eq_ok_iff.1 h
  rw [session_append]
  exact fluentId_of_getElem? (getElem?_fluents_foldl_step more hi)

/-- No call is on the record for more than one thing. -/
theorem length_filterMap_session_le {α : Type} (calls : List Call)
    (f : Call × Except ProblemError Reply → Option α) :
    ((session calls).1.filterMap f).length ≤ calls.length := by
  calc ((session calls).1.filterMap f).length
      ≤ (session calls).1.length := List.length_filterMap_le _ _
    _ = ((session calls).1.map Prod.fst).length := (List.length_map _).symm
    _ = calls.length := by rw [map_fst_session]

theorem numFluents_session_le (calls : List Call) :
    (session calls).2.build.numFluents ≤ calls.length := by
  have hle := length_filterMap_session_le calls Record.fluent?
  rw [(describes_session calls).fluents_eq, List.length_map, List.length_zipIdx] at hle
  exact hle

theorem numActions_session_le (calls : List Call) :
    (session calls).2.build.numActions ≤ calls.length := by
  have hle := length_filterMap_session_le calls Record.action?
  rw [(describes_session calls).actions_eq, List.length_map, List.length_zipIdx] at hle
  exact hle

/-! ## The account

What a record says is gathered in one structure, without mention of how a builder finds names or
checks mentions. -/

/-- The call asks for something that can be done with the problem. -/
def Call.Admissible (p : Problem) : Call → Prop
  | .addFluent name => name ∉ p.fluents
  | .fluentId name => name ∈ p.fluents
  | .addAction a => a.Within p.numFluents
  | .setInitial init => init.Within p.numFluents
  | .setGoal goal => goal.Within p.numFluents

/-- There is a reason to refuse a call exactly if the call is not admissible. -/
theorem exists_refused_iff {p : Problem} : (∃ e, Refused p c e) ↔ ¬ c.Admissible p := by
  cases c with
  | addFluent name =>
    exact ⟨fun ⟨_, .addFluent h⟩ hadm => hadm h, fun h => ⟨_, .addFluent (not_not.1 h)⟩⟩
  | fluentId name => exact ⟨fun ⟨_, .fluentId h⟩ => h, fun h => ⟨_, .fluentId h⟩⟩
  | addAction a =>
    rw [Call.Admissible, ← Action.declared_mentions_iff, ← Problem.exists_firstUndeclared_iff]
    exact ⟨fun ⟨_, .addAction h⟩ => ⟨_, h⟩, fun ⟨_, h⟩ => ⟨_, .addAction h⟩⟩
  | setInitial init =>
    rw [Call.Admissible, ← InitialState.declared_mentions_iff, ← Problem.exists_firstUndeclared_iff]
    exact ⟨fun ⟨_, .setInitial h⟩ => ⟨_, h⟩, fun ⟨_, h⟩ => ⟨_, .setInitial h⟩⟩
  | setGoal goal =>
    rw [Call.Admissible, ← Condition.declared_mentions_iff, ← Problem.exists_firstUndeclared_iff]
    exact ⟨fun ⟨_, .setGoal h⟩ => ⟨_, h⟩, fun ⟨_, h⟩ => ⟨_, .setGoal h⟩⟩

/-- The record `t` of the calls, and what it says about the builder `b`. -/
structure Accounts (calls : List Call) (t : Record) (b : Builder) : Prop where
  calls_eq : t.map Prod.fst = calls
  /-- No two fluents have the same name. -/
  names_nodup : b.build.fluents.toList.Nodup
  /-- A name is found at its place, -/
  fluentId_ok_iff : ∀ name f, b.fluentId name = .ok f ↔ b.build.fluents[f.toNat]? = some name
  /-- and refused as unknown if it has none. -/
  fluentId_error_iff : ∀ name e, b.fluentId name = .error e ↔
    name ∉ b.build.fluents ∧ e = .unknownFluent name
  /-- The fluents are those that were declared, numbered from zero. -/
  fluents_eq : (t.filterMap Record.fluent?).map (fun q => (q.1, q.2.toNat)) =
    b.build.fluents.toList.zipIdx
  /-- The actions are those that were added, numbered from zero. -/
  actions_eq : (t.filterMap Record.action?).map (fun q => (q.1, q.2.toNat)) =
    b.build.actions.toList.zipIdx
  /-- The initial state is the one that was set last. -/
  initial_eq : b.build.initial = (t.filterMap Record.initial?).getLast?.getD .empty
  /-- The goal is the one that was set last. -/
  goal_eq : b.build.goal = (t.filterMap Record.goal?).getLast?.getD .empty
  actions_within : ∀ a ∈ b.build.actions, a.Within b.build.numFluents
  initial_within : b.build.initial.Within b.build.numFluents
  goal_within : b.build.goal.Within b.build.numFluents
  /-- A call is refused exactly if it is not admissible, -/
  fails_iff : ∀ c, (∃ e, (b.perform c).1 = .error e) ↔ ¬ c.Admissible b.build
  /-- for the reason that there is, -/
  error_iff : ∀ c e, (b.perform c).1 = .error e ↔ Refused b.build c e
  /-- and then it has no effect. -/
  unchanged : ∀ c e, (b.perform c).1 = .error e → (b.perform c).2 = b

/-- Positions that have been cut down to 32 bits are as they were if there are not too many. -/
theorem map_zipIdx_eq_self {α : Type} {xs : List α} {g : Nat → Nat}
    (h : ∀ i < xs.length, g i = i) : xs.zipIdx.map (fun q => (q.1, g q.2)) = xs.zipIdx := by
  refine (List.map_congr_left fun q hq => ?_).trans (List.map_id _)
  rw [h q.2 (List.snd_lt_of_mem_zipIdx hq)]
  rfl

/-- **A session and its record.** -/
theorem accounts_session (hfluents : (session calls).2.build.numFluents ≤ UInt32.size)
    (hactions : (session calls).2.build.numActions ≤ UInt32.size) :
    Accounts calls (session calls).1 (session calls).2 := by
  have hrecord := describes_session calls
  generalize hb : (session calls).2 = b at hfluents hactions hrecord ⊢
  have hplace : ∀ i < b.problem.fluents.size, (FluentId.ofNat i).toNat = i := fun i hi =>
    FluentId.toNat_ofNat (Nat.lt_of_lt_of_le hi hfluents)
  have hplace' : ∀ i < b.problem.actions.size, (ActionId.ofNat i).toNat = i := fun i hi =>
    ActionId.toNat_ofNat (Nat.lt_of_lt_of_le hi hactions)
  exact {
    calls_eq := map_fst_session calls
    names_nodup := b.problem.names_nodup
    fluentId_ok_iff := fun name f => by
      rw [fluentId_eq_ok_iff]
      constructor
      · rintro ⟨i, hi, rfl⟩
        rw [hplace i (Array.getElem?_eq_some_iff.1 hi).1]
        exact hi
      · exact fun h => ⟨f.toNat, h, f.ofNat_toNat⟩
    fluentId_error_iff := fun name e => by
      by_cases hmem : name ∈ b.problem.fluents
      · obtain ⟨i, hi⟩ := Array.mem_iff_getElem?.1 hmem
        rw [fluentId_of_getElem? hi]
        exact ⟨fun h => absurd h (by simp), fun h => absurd hmem h.1⟩
      · rw [fluentId_of_not_mem hmem, Except.error.injEq]
        exact ⟨fun h => ⟨hmem, h.symm⟩, fun h => h.2.symm⟩
    fluents_eq := by
      rw [hrecord.fluents_eq, List.map_map]
      exact map_zipIdx_eq_self hplace
    actions_eq := by
      rw [hrecord.actions_eq, List.map_map]
      exact map_zipIdx_eq_self hplace'
    initial_eq := hrecord.initial_eq.symm
    goal_eq := hrecord.goal_eq.symm
    actions_within := fun a ha => Action.declared_mentions_iff.1 (b.problem.actions_declared a ha)
    initial_within := InitialState.declared_mentions_iff.1 b.problem.initial_declared
    goal_within := Condition.declared_mentions_iff.1 b.problem.goal_declared
    fails_iff := fun c => by
      simp only [perform_eq_error_iff]
      exact exists_refused_iff
    error_iff := fun _ _ => perform_eq_error_iff
    unchanged := fun _ _ => perform_snd_of_error }

/-- **Every session is accounted for.**  Whatever is asked of a builder that was blank, refusals
included: as long as the numbers suffice, the record of the session says what the builder holds and
what it will refuse next, and a name that has been found keeps its number for all that follows. -/
theorem session_accounted (calls : List Call)
    (hfluents : (session calls).2.build.numFluents ≤ UInt32.size)
    (hactions : (session calls).2.build.numActions ≤ UInt32.size) :
    Accounts calls (session calls).1 (session calls).2 ∧
      ∀ more name f, (session calls).2.fluentId name = .ok f →
        (session (calls ++ more)).2.fluentId name = .ok f :=
  ⟨accounts_session hfluents hactions, fun more _ _ h => fluentId_session_append h more⟩

/-- Turns a lamp on that is off. -/
def turnOn : Action := ⟨"turn on", .ofLists [] [.ofNat 0], [⟨.empty, .ofLists [.ofNat 0] []⟩]⟩

/-- Turns a lamp off unless a fluent holds that is not declared. -/
def turnOff : Action := ⟨"turn off", .empty, [⟨.ofLists [] [.ofNat 1], .ofLists [] [.ofNat 0]⟩]⟩

/-- Calls about a lamp.  The fluent is declared twice, another one is asked for, and the guard of
the second action and the second goal mention fluents that are not declared. -/
def lamp : Record :=
  [(.addFluent "lit", .ok (.fluent (.ofNat 0))),
    (.addFluent "lit", .error (.duplicateFluent "lit")),
    (.fluentId "dim", .error (.unknownFluent "dim")),
    (.addAction turnOn, .ok (.action (.ofNat 0))),
    (.addAction turnOff, .error (.fluentOutOfRange (.ofNat 1) 1 (.action "turn off"))),
    (.setInitial (.ofLists [] [.ofNat 0]), .ok .done),
    (.setGoal (.ofLists [.ofNat 0] []), .ok .done),
    (.setGoal (.ofLists [.ofNat 0] [.ofNat 2]), .error (.fluentOutOfRange (.ofNat 2) 1 .goal))]

theorem leads_lamp : ∃ q, Leads .empty lamp q ∧ q.fluents = #["lit"] ∧ q.actions = #[turnOn] ∧
    q.initial = .ofLists [] [.ofNat 0] ∧ q.goal = .ofLists [.ofNat 0] [] := by
  refine ⟨_, .granted (.addFluent (Array.not_mem_empty _)) <|
    .refused (.addFluent Array.mem_push_self) <|
    .refused (.fluentId (by simp [Problem.withFluent, Problem.empty])) <|
    .granted (.addAction (Problem.firstUndeclared?_eq_none_iff.1 (by decide +kernel))) <|
    .refused (.addAction (Problem.firstUndeclared?_eq_some_iff.1 (by decide +kernel))) <|
    .granted (.setInitial (Problem.firstUndeclared?_eq_none_iff.1 (by decide +kernel))) <|
    .granted (.setGoal (Problem.firstUndeclared?_eq_none_iff.1 (by decide +kernel))) <|
    .refused (.setGoal (Problem.firstUndeclared?_eq_some_iff.1 (by decide +kernel))) <|
    .nil _, rfl, rfl, rfl, rfl⟩

/-- **The session about the lamp**: half of its calls are refused, and the problem has what the
other half asks for. -/
theorem session_accounted_lamp :
    (session (lamp.map Prod.fst)).1 = lamp ∧
      (session (lamp.map Prod.fst)).2.build.actions = #[turnOn] ∧
      (session (lamp.map Prod.fst)).2.build.initial = .ofLists [] [.ofNat 0] ∧
      (session (lamp.map Prod.fst)).2.build.goal = .ofLists [.ofNat 0] [] ∧
      (session (lamp.map Prod.fst)).2.build.numFluents ≤ UInt32.size ∧
      (session (lamp.map Prod.fst)).2.build.numActions ≤ UInt32.size ∧
      Accounts (lamp.map Prod.fst) lamp (session (lamp.map Prod.fst)).2 ∧
      ∀ more name f, (session (lamp.map Prod.fst)).2.fluentId name = .ok f →
        (session (lamp.map Prod.fst ++ more)).2.fluentId name = .ok f := by
  obtain ⟨q, hlamp, -, hactions, hinitial, hgoal⟩ := leads_lamp
  obtain ⟨hrecord, rfl⟩ := session_of_leads hlamp
  have hsmall : (lamp.map Prod.fst).length ≤ UInt32.size := by decide
  have hfluents := Nat.le_trans (numFluents_session_le _) hsmall
  have hnum := Nat.le_trans (numActions_session_le _) hsmall
  obtain ⟨haccounts, hkept⟩ := session_accounted (lamp.map Prod.fst) hfluents hnum
  rw [hrecord] at haccounts
  exact ⟨hrecord, hactions, hinitial, hgoal, hfluents, hnum, haccounts, hkept⟩

end Builder
end SnapshotPlan
