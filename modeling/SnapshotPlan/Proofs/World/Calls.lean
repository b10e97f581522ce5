import Mathlib.Data.Fintype.Basic
import SnapshotPlan.World.Builder

/-!
# How a call on a builder ends

A builder does what it is asked if the problem at hand allows it, and refuses otherwise.  Which of
the two, and what comes of it, is a matter of the problem alone.

## What is here

* `Action.Within` — all six kinds of fluents of an action are among the first so many, and
  `Action.declared_mentions_iff`: that is what checking the mentions of an action comes to.
* `Builder.Refused`, `Builder.Granted` — the ways in which a call may end, as relations.
  `perform_of_refused` and `perform_of_granted`: a builder keeps to them.
* `Builder.getElem?_fluents_perform` — a name keeps its place, whatever is asked.
-/

set_option autoImplicit false

namespace SnapshotPlan

/-! ## Fluents among the first so many

Mentions are checked one after another, and a refusal names the first that fails.  So it takes
two facts: when all pass, and which is the first that does not. -/

/-- Every fluent of the set is among the first `n`. -/
def FluentSet.Within (s : FluentSet) (n : Nat) : Prop := ∀ f ∈ s, f.toNat < n

/-- Every fluent of the condition is among the first `n`. -/
def Condition.Within (c : Condition) (n : Nat) : Prop := c.positive.Within n ∧ c.negative.Within n

/-- Every fluent of the effect is among the first `n`. -/
def Effect.Within (e : Effect) (n : Nat) : Prop := e.positive.Within n ∧ e.negative.Within n

/-- Every fluent of the initial state is among the first `n`. -/
def InitialState.Within (i : InitialState) (n : Nat) : Prop :=
  i.positive.Within n ∧ i.negative.Within n

/-- Every fluent of the action is among the first `n`. -/
structure Action.Within (a : Action) (n : Nat) : Prop where
  precondition : a.precondition.Within n
  guards : ∀ e ∈ a.effects, e.guard.Within n
  effects : ∀ e ∈ a.effects, e.effect.Within n

section Within

variable {n : Nat}

theorem Condition.declared_mentions_iff {c : Condition} : Declared n c.mentions ↔ c.Within n :=
  List.forall_mem_append

theorem Effect.declared_mentions_iff {e : Effect} : Declared n e.mentions ↔ e.Within n :=
  List.forall_mem_append

theorem InitialState.declared_mentions_iff {i : InitialState} :
    Declared n i.mentions ↔ i.Within n :=
  List.forall_mem_append

theorem ConditionalEffect.declared_mentions_iff {e : ConditionalEffect} :
    Declared n e.mentions ↔ e.guard.Within n ∧ e.effect.Within n := by
  rw [← Condition.declared_mentions_iff, ← Effect.declared_mentions_iff]
  exact List.forall_mem_append

/-- **The mentions of an action are all the fluents that it has to do with.** -/
theorem Action.declared_mentions_iff {a : Action} : Declared n a.mentions ↔ a.Within n := by
  have heffects : Declared n (a.effects.flatMap ConditionalEffect.mentions) ↔
      ∀ e ∈ a.effects, e.guard.Within n ∧ e.effect.Within n := by
    simp only [← ConditionalEffect.declared_mentions_iff]
    exact List.forall_mem_flatMap
  have hall : Declared n a.mentions ↔ Declared n a.precondition.mentions ∧
      Declared n (a.effects.flatMap ConditionalEffect.mentions) := List.forall_mem_append
  rw [hall, heffects, Condition.declared_mentions_iff]
  constructor
  · rintro ⟨hpre, he⟩
    exact ⟨hpre, fun e hmem => (he e hmem).1, fun e hmem => (he e hmem).2⟩
  · rintro ⟨hpre, hguards, heffects⟩
    exact ⟨hpre, fun e hmem => ⟨hguards e hmem, heffects e hmem⟩⟩

end Within

/-- The fluent `f` is the first of the list that is not among the first `n`. -/
def FirstUndeclared (n : Nat) (ids : List FluentId) (f : FluentId) : Prop :=
  ∃ before after, ids = before ++ f :: after ∧ Declared n before ∧ n ≤ f.toNat

namespace Problem

theorem firstUndeclared?_eq_some_iff {n : Nat} {ids : List FluentId} {f : FluentId} :
    firstUndeclared? n ids = some f ↔ FirstUndeclared n ids f := by
  rw [firstUndeclared?, List.find?_eq_some_iff_append]
  simp only [FirstUndeclared, Declared, decide_eq_true_eq, Bool.not_eq_true',
    decide_eq_false_iff_not, Nat.not_le]
  constructor
  · rintro ⟨hf, before, after, hids, hbefore⟩
    exact ⟨before, after, hids, hbefore, hf⟩
  · rintro ⟨before, after, hids, hbefore, hf⟩
    exact ⟨hf, before, after, hids, hbefore⟩

variable {p : Problem} {ids : List FluentId} (context : MentionContext)

theorem check_of_firstUndeclared {f : FluentId} (h : FirstUndeclared p.fluents.size ids f) :
    p.check ids context = .error (.fluentOutOfRange f p.fluents.size context) := by
  have hfirst := firstUndeclared?_eq_some_iff.2 h
  rw [check]
  split
  · next g hg =>
    rw [hfirst] at hg
    cases hg
    rfl
  · next hnone =>
    rw [hfirst] at hnone
    cases hnone

theorem check_of_declared (known : Declared p.fluents.size ids) :
    p.check ids context = .ok ⟨known⟩ := by
  have hnone := firstUndeclared?_eq_none_iff.2 known
  rw [check]
  split
  · next f hf =>
    rw [hnone] at hf
    cases hf
  · rfl

/-- A list is ruled out exactly by a first undeclared fluent. -/
theorem exists_firstUndeclared_iff {n : Nat} {ids : List FluentId} :
    (∃ f, FirstUndeclared n ids f) ↔ ¬ Declared n ids := by
  simp only [← firstUndeclared?_eq_some_iff, ← firstUndeclared?_eq_none_iff]
  exact Option.ne_none_iff_exists'.symm

/-- Some fluent of a list is the first undeclared one, or all are declared. -/
theorem firstUndeclared_or_declared (p : Problem) (ids : List FluentId) :
    (∃ f, FirstUndeclared p.fluents.size ids f) ∨ Declared p.fluents.size ids := by
  by_cases known : Declared p.fluents.size ids
  · exact .inr known
  · exact .inl (exists_firstUndeclared_iff.2 known)

end Problem

namespace Builder

/-! ## How a call ends

The two relations leave nothing out and have nothing in common, so a fact about calls has one
case for each way in which one may end. -/

/-- A builder of the problem `p` has to refuse the call, for the given reason. -/
inductive Refused (p : Problem) : Call → ProblemError → Prop
  | addFluent {name : String} (h : name ∈ p.fluents) :
      Refused p (.addFluent name) (.duplicateFluent name)
  | fluentId {name : String} (h : name ∉ p.fluents) :
      Refused p (.fluentId name) (.unknownFluent name)
  | addAction {a : Action} {f : FluentId} (h : FirstUndeclared p.fluents.size a.mentions f) :
      Refused p (.addAction a) (.fluentOutOfRange f p.fluents.size (.action a.name))
  | setInitial {init : InitialState} {f : FluentId}
      (h : FirstUndeclared p.fluents.size init.mentions f) :
      Refused p (.setInitial init) (.fluentOutOfRange f p.fluents.size .initialState)
  | setGoal {goal : Condition} {f : FluentId} (h : FirstUndeclared p.fluents.size goal.mentions f) :
      Refused p (.setGoal goal) (.fluentOutOfRange f p.fluents.size .goal)

/-- A builder of the problem `p` may do what is asked: it replies, and has another problem then. -/
inductive Granted (p : Problem) : Call → Reply → Problem → Prop
  | addFluent {name : String} (fresh : name ∉ p.fluents) :
      Granted p (.addFluent name) (.fluent (.ofNat p.fluents.size)) (p.withFluent name fresh)
  | fluentId {name : String} {i : Nat} (h : p.fluents[i]? = some name) :
      Granted p (.fluentId name) (.fluent (.ofNat i)) p
  | addAction {a : Action} (known : Declared p.fluents.size a.mentions) :
      Granted p (.addAction a) (.action (.ofNat p.actions.size)) (p.withAction a known)
  | setInitial {init : InitialState} (known : Declared p.fluents.size init.mentions) :
      Granted p (.setInitial init) .done (p.withInitial init known)
  | setGoal {goal : Condition} (known : Declared p.fluents.size goal.mentions) :
      Granted p (.setGoal goal) .done (p.withGoal goal known)

variable {b b' : Builder} {c : Call} {e : ProblemError} {reply : Reply} {p' : Problem}

theorem refused_or_granted (p : Problem) (c : Call) :
    (∃ e, Refused p c e) ∨ ∃ reply p', Granted p c reply p' := by
  cases c with
  | addFluent name =>
    by_cases h : name ∈ p.fluents
    · exact .inl ⟨_, .addFluent h⟩
    · exact .inr ⟨_, _, .addFluent h⟩
  | fluentId name =>
    by_cases h : name ∈ p.fluents
    · obtain ⟨i, hi⟩ := Array.mem_iff_getElem?.1 h
      exact .inr ⟨_, _, .fluentId hi⟩
    · exact .inl ⟨_, .fluentId h⟩
  | addAction a =>
    obtain ⟨f, h⟩ | known := p.firstUndeclared_or_declared a.mentions
    · exact .inl ⟨_, .addAction h⟩
    · exact .inr ⟨_, _, .addAction known⟩
  | setInitial init =>
    obtain ⟨f, h⟩ | known := p.firstUndeclared_or_declared init.mentions
    · exact .inl ⟨_, .setInitial h⟩
    · exact .inr ⟨_, _, .setInitial known⟩
  | setGoal goal =>
    obtain ⟨f, h⟩ | known := p.firstUndeclared_or_declared goal.mentions
    · exact .inl ⟨_, .setGoal h⟩
    · exact .inr ⟨_, _, .setGoal known⟩

theorem fluentId_of_getElem? {name : String} {i : Nat} (h : b.problem.fluents[i]? = some name) :
    b.fluentId name = .ok (.ofNat i) := by
  rw [fluentId, (b.find_iff name _).2 ⟨i, h, rfl⟩]

theorem fluentId_of_not_mem {name : String} (h : name ∉ b.problem.fluents) :
    b.fluentId name = .error (.unknownFluent name) := by
  have hnone : b.numbers[name]? = none := by
    rcases hf : b.numbers[name]? with _ | f
    · rfl
    · obtain ⟨i, hi, -⟩ := (b.find_iff name f).1 hf
      exact absurd (Array.mem_of_getElem? hi) h
  rw [fluentId, hnone]

/-- **A call that has to be refused is**, and the builder stays as it was. -/
theorem perform_of_refused (h : Refused b.problem c e) : b.perform c = (.error e, b) := by
  cases h with
  | addFluent h => rw [perform, addFluent, dif_pos (mem_numbers_iff.2 h)]; rfl
  | fluentId h => rw [perform, fluentId_of_not_mem h]; rfl
  | addAction h => rw [perform, addAction, Problem.check_of_firstUndeclared _ h]; rfl
  | setInitial h => rw [perform, setInitial, Problem.check_of_firstUndeclared _ h]; rfl
  | setGoal h => rw [perform, setGoal, Problem.check_of_firstUndeclared _ h]; rfl

/-- **A call that may be granted is.** -/
theorem perform_of_granted (h : Granted b.problem c reply p') :
    ∃ b', b.perform c = (.ok reply, b') ∧ b'.problem = p' := by
  cases h with
  | addFluent fresh =>
    rw [perform, addFluent, dif_neg fun h => fresh (mem_numbers_iff.1 h)]
    exact ⟨_, rfl, rfl⟩
  | fluentId h =>
    rw [perform, fluentId_of_getElem? h]
    exact ⟨_, rfl, rfl⟩
  | addAction known =>
    rw [perform, addAction, Problem.check_of_declared _ known]
    exact ⟨_, rfl, rfl⟩
  | setInitial known =>
    rw [perform, setInitial, Problem.check_of_declared _ known]
    exact ⟨_, rfl, rfl⟩
  | setGoal known =>
    rw [perform, setGoal, Problem.check_of_declared _ known]
    exact ⟨_, rfl, rfl⟩

/-- **What a call comes to.** -/
theorem perform_cases (b : Builder) (c : Call) :
    (∃ e, Refused b.problem c e ∧ b.perform c = (.error e, b)) ∨
      ∃ reply p' b', Granted b.problem c reply p' ∧ b.perform c = (.ok reply, b') ∧
        b'.problem = p' := by
  obtain ⟨e, h⟩ | ⟨reply, p', h⟩ := refused_or_granted b.problem c
  · exact .inl ⟨e, h, perform_of_refused h⟩
  · obtain ⟨b', hb', hp'⟩ := perform_of_granted h
    exact .inr ⟨reply, p', b', h, hb', hp'⟩

theorem perform_eq_error_iff : (b.perform c).1 = .error e ↔ Refused b.problem c e := by
  refine ⟨fun h => ?_, fun h => by rw [perform_of_refused h]⟩
  obtain ⟨e', href, hperf⟩ | ⟨reply, p', b', -, hperf, -⟩ := perform_cases b c
  · rw [hperf] at h
    cases h
    exact href
  · rw [hperf] at h
    cases h

theorem perform_snd_of_error (h : (b.perform c).1 = .error e) : (b.perform c).2 = b := by
  rw [perform_of_refused (perform_eq_error_iff.1 h)]

theorem fluentId_eq_ok_iff {name : String} {f : FluentId} :
    b.fluentId name = .ok f ↔ ∃ i, b.problem.fluents[i]? = some name ∧ FluentId.ofNat i = f := by
  rw [← b.find_iff, fluentId]
  cases b.numbers[name]? <;> simp

/-- A name keeps its place among the fluents, whatever is asked. -/
theorem getElem?_fluents_perform {name : String} {i : Nat}
    (h : b.problem.fluents[i]? = some name) (c : Call) :
    (b.perform c).2.problem.fluents[i]? = some name := by
  obtain ⟨e, -, hperf⟩ | ⟨reply, p', b', hgrant, hperf, hp'⟩ := perform_cases b c
  · rw [hperf]
    exact h
  · rw [hperf, hp']
    cases hgrant with
    | addFluent fresh =>
      have hlt := (Array.getElem?_eq_some_iff.1 h).1
      show (b.problem.fluents.push _)[i]? = some name
      rw [Array.getElem?_push, if_neg (Nat.ne_of_lt hlt), h]
    | fluentId _ => exact h
    | addAction known => exact h
    | setInitial known => exact h
    | setGoal known => exact h

end Builder
end SnapshotPlan
