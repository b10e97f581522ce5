import SnapshotPlan.Proofs.World.Calls

/-!
# Problems from their parts

`Problem.assemble` asks a blank builder for one thing after another and stops at the first refusal.
There is none if the names are distinct and nothing is mentioned that is not declared, and then the
problem has the parts that were asked for.

## What is here

* `Builder.performAll_append`, `Builder.performAll_append_eq_ok_iff` — calls in two lots.
* `Builder.numbers_performAll` — a name that has been found keeps its number.
* `Builder.exists_performAll_addFluent`, `Builder.exists_performAll_addAction` — many fluents, and
  many actions.
* `Problem.exists_assemble` — **the problem with the given parts.**
-/

set_option autoImplicit false

namespace SnapshotPlan

namespace Builder

section Calls

variable {cs ds : List Call} {b b' : Builder}

/-- If calls are granted, then the first one is, and then the others are. -/
theorem exists_perform_of_performAll {c : Call} (h : b.performAll (c :: cs) = .ok b') :
    ∃ reply b₁, b.perform c = (.ok reply, b₁) ∧ b₁.performAll cs = .ok b' := by
  rw [performAll] at h
  split at h
  · cases h
  · next reply b₁ hc => exact ⟨reply, b₁, hc, h⟩

theorem performAll_append (h : b.performAll cs = .ok b') :
    b.performAll (cs ++ ds) = b'.performAll ds := by
  induction cs generalizing b with
  | nil =>
    cases h
    rfl
  | cons c cs ih =>
    obtain ⟨reply, b₁, hc, hrest⟩ := exists_perform_of_performAll h
    rw [List.cons_append, performAll, hc]
    exact ih hrest

theorem performAll_append_eq_ok_iff :
    b.performAll (cs ++ ds) = .ok b' ↔
      ∃ b₁, b.performAll cs = .ok b₁ ∧ b₁.performAll ds = .ok b' := by
  refine ⟨fun h => ?_, fun ⟨b₁, hcs, hds⟩ => (performAll_append hcs).trans hds⟩
  induction cs generalizing b with
  | nil => exact ⟨b, rfl, h⟩
  | cons c cs ih =>
    obtain ⟨reply, b₁, hc, hrest⟩ := exists_perform_of_performAll h
    obtain ⟨b₂, hcs, hds⟩ := ih hrest
    refine ⟨b₂, ?_, hds⟩
    rw [performAll, hc]
    exact hcs

/-- A fluent that has been found is found again, whatever is asked in between. -/
theorem numbers_performAll {name : String} {f : FluentId} (hf : b.numbers[name]? = some f)
    (h : b.performAll cs = .ok b') : b'.numbers[name]? = some f := by
  induction cs generalizing b with
  | nil => cases h; exact hf
  | cons c cs ih =>
    obtain ⟨reply, b₁, hc, hrest⟩ := exists_perform_of_performAll h
    obtain ⟨i, hi, hif⟩ := (b.find_iff name f).1 hf
    have hi₁ := getElem?_fluents_perform hi c
    rw [hc] at hi₁
    exact ih ((b₁.find_iff name f).2 ⟨i, hi₁, hif⟩) hrest

end Calls

/-- A call that may be granted is made first. -/
theorem exists_performAll_cons {b : Builder} {c : Call} {reply : Reply} {p' : Problem}
    (h : Granted b.problem c reply p') (cs : List Call) :
    ∃ b' : Builder, b.performAll (c :: cs) = b'.performAll cs ∧ b'.problem = p' := by
  obtain ⟨b', hb', hp'⟩ := perform_of_granted h
  refine ⟨b', ?_, hp'⟩
  rw [performAll, hb']

/-- **Fluents with new and distinct names are declared**, in order. -/
theorem exists_performAll_addFluent {names : List String} : ∀ {b : Builder},
    (b.problem.fluents.toList ++ names).Nodup →
      ∃ b', b.performAll (names.map .addFluent) = .ok b' ∧
        b'.problem.fluents.toList = b.problem.fluents.toList ++ names ∧
        b'.problem.actions = b.problem.actions := by
  induction names with
  | nil => exact fun {b} _ => ⟨b, rfl, (List.append_nil _).symm, rfl⟩
  | cons name names ih =>
    intro b hnodup
    have hdisjoint := (List.nodup_append.1 hnodup).2.2
    have fresh : name ∉ b.problem.fluents := fun hmem =>
      hdisjoint name (Array.mem_toList_iff.2 hmem) name List.mem_cons_self rfl
    obtain ⟨b₁, hb₁, hp₁⟩ := exists_performAll_cons (.addFluent fresh) (names.map Call.addFluent)
    have hall : b₁.problem.fluents.toList ++ names = b.problem.fluents.toList ++ name :: names := by
      rw [hp₁, Problem.withFluent, Array.toList_push, List.append_assoc, List.singleton_append]
    obtain ⟨b', hb', hfluents, hactions⟩ := ih (b := b₁) (by rw [hall]; exact hnodup)
    refine ⟨b', hb₁.trans hb', hfluents.trans hall, hactions.trans ?_⟩
    rw [hp₁, Problem.withFluent]

/-- **Actions that mention only declared fluents are added**, in order. -/
theorem exists_performAll_addAction {actions : List Action} : ∀ {b : Builder},
    (∀ a ∈ actions, Declared b.problem.fluents.size a.mentions) →
      ∃ b', b.performAll (actions.map .addAction) = .ok b' ∧
        b'.problem.fluents = b.problem.fluents ∧
        b'.problem.actions.toList = b.problem.actions.toList ++ actions := by
  induction actions with
  | nil => exact fun {b} _ => ⟨b, rfl, rfl, (List.append_nil _).symm⟩
  | cons a actions ih =>
    intro b hknown
    obtain ⟨known, hrest⟩ := List.forall_mem_cons.1 hknown
    obtain ⟨b₁, hb₁, hp₁⟩ := exists_performAll_cons (.addAction known) (actions.map Call.addAction)
    have hfluents₁ : b₁.problem.fluents = b.problem.fluents := by rw [hp₁, Problem.withAction]
    obtain ⟨b', hb', hfluents, hactions⟩ := ih (b := b₁) (by rw [hfluents₁]; exact hrest)
    refine ⟨b', hb₁.trans hb', hfluents.trans hfluents₁, hactions.trans ?_⟩
    rw [hp₁, Problem.withAction, Array.toList_push, List.append_assoc, List.singleton_append]

end Builder

/-- **A problem has the parts from which it is assembled**, if its fluents have distinct names and
nothing else is mentioned. -/
theorem Problem.exists_assemble {fluents : List String} {actions : List Action}
    {init : InitialState} {goal : Condition} (hnames : fluents.Nodup)
    (hactions : ∀ a ∈ actions, Declared fluents.length a.mentions)
    (hinit : Declared fluents.length init.mentions)
    (hgoal : Declared fluents.length goal.mentions) :
    ∃ p, assemble fluents actions init goal = .ok p ∧ p.fluents.toList = fluents ∧
      p.actions.toList = actions ∧ p.initial = init ∧ p.goal = goal := by
  obtain ⟨b₁, hb₁, hfluents₁, hactions₁⟩ :=
    @Builder.exists_performAll_addFluent fluents .blank hnames
  have hsize₁ : b₁.problem.fluents.size = fluents.length := by
    rw [← Array.length_toList, hfluents₁]
    rfl
  obtain ⟨b₂, hb₂, hfluents₂, hactions₂⟩ :=
    @Builder.exists_performAll_addAction actions b₁ (by rwa [hsize₁])
  have hsize₂ : b₂.problem.fluents.size = fluents.length := by rw [hfluents₂, hsize₁]
  have hinit₂ : Declared b₂.problem.fluents.size init.mentions := by rwa [hsize₂]
  obtain ⟨b₃, hb₃, hp₃⟩ := Builder.exists_performAll_cons (.setInitial hinit₂) [.setGoal goal]
  have hgoal₃ : Declared b₃.problem.fluents.size goal.mentions := by
    rw [hp₃, Problem.withInitial, hsize₂]
    exact hgoal
  obtain ⟨b₄, hb₄, hp₄⟩ := Builder.exists_performAll_cons (.setGoal hgoal₃) []
  have hrun : Builder.blank.performAll (fluents.map .addFluent ++ actions.map .addAction ++
      [.setInitial init, .setGoal goal]) = .ok b₄ := by
    rw [List.append_assoc, Builder.performAll_append hb₁, Builder.performAll_append hb₂, hb₃, hb₄]
    rfl
  have hfluents₃ : b₃.problem.fluents = b₁.problem.fluents := by
    rw [hp₃, Problem.withInitial, hfluents₂]
  have hactions₃ : b₃.problem.actions = b₂.problem.actions := by rw [hp₃, Problem.withInitial]
  have hinitial₃ : b₃.problem.initial = init := by rw [hp₃, Problem.withInitial]
  refine ⟨b₄.problem, ?_, ?_, ?_, ?_, ?_⟩
  · rw [assemble, hrun]
    rfl
  · rw [hp₄, Problem.withGoal, hfluents₃, hfluents₁]
    rfl
  · rw [hp₄, Problem.withGoal, hactions₃, hactions₂, hactions₁]
    rfl
  · rw [hp₄, Problem.withGoal, hinitial₃]
  · rw [hp₄, Problem.withGoal]

end SnapshotPlan
