import SnapshotPlan.Planner.Report
import SnapshotPlan.Proofs.Planner.Protocol
import SnapshotPlan.Proofs.Planner.Soundness
import SnapshotPlan.Proofs.Text.Reading

/-!
# Printing what was found

What is printed of a problem, a plan or a valuation looks up names by number, and a number may have
no name.  It never comes to that: all that a problem mentions is declared, and all that is read off
a model is too, whatever the oracle answers.  Nothing is lost in print either: a plan can be told
from its text.

## What is here

* `Problem.Declares` — an object that the problem declares, which is one with a name.
* `Problem.render?`, `Problem.render?_eq` — **a problem can always be written.**
* `Plan.exists_render?_iff`, `Plan.eq_of_render?` — which plans can be written, and that **no two
  have the same text.**
* `Valuation.Grouped`, `Valuation.exists_render?_iff` — the two groups of a valuation, and which
  valuations can be written.
* `declares_of_solve` — **what is found is declared**, with any oracle.
* `parrot` — an oracle that answers without listening.
* `solve_renders_injectively` — all of it in one statement.
-/

set_option autoImplicit false

namespace SnapshotPlan

/-! ## Names

Where a number has no name the printer would have to stop.  Numbers below the counts have names,
and to be declared is to have such a number. -/

namespace Problem

variable {p : Problem}

theorem exists_fluentName?_iff {f : FluentId} :
    (∃ name, p.fluentName? f = some name) ↔ f.toNat < p.numFluents := by
  simp only [fluentName?, Array.getElem?_eq_some_iff]
  exact ⟨fun ⟨_, h, _⟩ => h, fun h => ⟨_, h, rfl⟩⟩

theorem exists_actionName?_iff {a : ActionId} :
    (∃ name, p.actionName? a = some name) ↔ a.toNat < p.numActions := by
  simp only [actionName?, Option.map_eq_some_iff, Array.getElem?_eq_some_iff]
  exact ⟨fun ⟨_, _, ⟨h, _⟩, _⟩ => h, fun h => ⟨_, _, ⟨h, rfl⟩, rfl⟩⟩

/-- The problem declares the object. -/
def Declares (p : Problem) : Object → Prop
  | .fluent f => f.toNat < p.numFluents
  | .action a => a.toNat < p.numActions

instance (p : Problem) : (o : Object) → Decidable (p.Declares o)
  | .fluent f => inferInstanceAs (Decidable (f.toNat < p.numFluents))
  | .action a => inferInstanceAs (Decidable (a.toNat < p.numActions))

/-- **The objects with a name are those that are declared.** -/
theorem exists_objectName?_iff {o : Object} :
    (∃ name, p.objectName? o = some name) ↔ p.Declares o := by
  cases o with
  | fluent f => exact exists_fluentName?_iff
  | action a => exact exists_actionName?_iff

/-- The actions stand after the fluents. -/
theorem isAction_iff_le {i : Nat} {o : Object} (h : p.objects[i]? = some o) :
    o.isAction = true ↔ p.numFluents ≤ i := by
  by_cases hlt : i < p.numFluents
  · rw [getElem?_objects_of_lt hlt] at h
    cases h
    exact iff_of_false nofun (Nat.not_le.2 hlt)
  · obtain ⟨j, rfl⟩ := Nat.exists_eq_add_of_le (Nat.not_lt.1 hlt)
    have hlen := (List.getElem?_eq_some_iff.1 h).1
    rw [length_objects] at hlen
    rw [getElem?_objects_add (by omega)] at h
    cases h
    exact iff_of_true rfl (Nat.le_add_right _ _)

theorem declares_of_mem_objects {o : Object} (h : o ∈ p.objects) : p.Declares o := by
  rcases List.mem_append.1 h with h | h
  · obtain ⟨_, hf, rfl⟩ := List.mem_map.1 h
    obtain ⟨i, hi, rfl⟩ := List.mem_map.1 hf
    exact Nat.lt_of_le_of_lt (Nat.mod_le i _) (List.mem_range.1 hi)
  · obtain ⟨_, ha, rfl⟩ := List.mem_map.1 h
    obtain ⟨i, hi, rfl⟩ := List.mem_map.1 ha
    exact Nat.lt_of_le_of_lt (Nat.mod_le i _) (List.mem_range.1 hi)

/-- Where actions have distinct names, an action is known by its name. -/
theorem eq_of_actionName? (h : (p.actions.toList.map Action.name).Nodup) {a b : ActionId}
    {name : String} (ha : p.actionName? a = some name) (hb : p.actionName? b = some name) :
    a = b := by
  have hnames : ∀ c, p.actionName? c = (p.actions.toList.map Action.name)[c.toNat]? := fun c => by
    rw [actionName?, List.getElem?_map, Array.getElem?_toList]
  rw [hnames] at ha hb
  exact ActionId.toNat_inj.1
    ((List.getElem?_inj (List.getElem?_eq_some_iff.1 ha).1 h).1 (ha.trans hb.symm))

/-! ## Problems -/

/-- The names of the fluents of a set, separated by blanks, if all are declared. -/
def renderSet? (p : Problem) (s : FluentSet) : Option String :=
  (s.toList.mapM p.fluentName?).map fun names => " ".intercalate names

/-- The problem in full, if all that it mentions is declared. -/
def render? (p : Problem) : Option String := do
  let initial ← p.renderSet? p.initial.positive
  let wanted ← p.renderSet? p.goal.positive
  let unwanted ←
    if p.goal.negative.isEmpty then some ""
    else (p.renderSet? p.goal.negative).map (" | not: " ++ ·)
  return renderNames "Fluents" p.fluents.toList
    ++ renderNames "Actions" (p.actions.toList.map Action.name)
    ++ "Init: " ++ initial ++ "\nGoal: " ++ wanted ++ unwanted

theorem renderSet?_eq {s : FluentSet} (h : Declared p.fluents.size s.toList) :
    p.renderSet? s = some (p.renderSet s) := by
  have hnames : s.toList.mapM p.fluentName? =
      some (s.toList.map fun f => (p.fluentName? f).getD "") := by
    rw [mapM_eq_some_iff, List.map_map]
    refine List.map_congr_left fun f hf => ?_
    obtain ⟨name, hname⟩ := exists_fluentName?_iff.2 (h f hf)
    rw [Function.comp_apply, hname, Option.getD_some]
  rw [renderSet?, hnames]
  rfl

/-- **A problem can always be written.** -/
theorem render?_eq (p : Problem) : p.render? = some p.render := by
  have hinitial := p.renderSet?_eq fun f hf => p.initial_declared f (List.mem_append_left _ hf)
  have hwanted := p.renderSet?_eq fun f hf => p.goal_declared f (List.mem_append_left _ hf)
  have hunwanted := p.renderSet?_eq fun f hf => p.goal_declared f (List.mem_append_right _ hf)
  rw [render?, hinitial, hwanted, hunwanted, render]
  cases p.goal.negative.isEmpty <;> rfl

end Problem

/-! ## Plans

As long as no name has a line end in it, a line ends where the text says so.  What stands before the
name depends on the place only, so a line gives its name away. -/

namespace Plan

variable {p : Problem} {plan plan' : Plan}

/-- The text of a line without its end. -/
def entry (i : Nat) (name : String) : String := column i ++ ": " ++ name

/-- The lines of a plan, without their ends, are its names in their places. -/
def entries (names : List String) : List String := names.zipIdx.map fun q => entry q.2 q.1

theorem not_mem_entry {i : Nat} {name : String} (h : '\n' ∉ name.toList) :
    '\n' ∉ (entry i name).toList := by
  have hcolumn : '\n' ∉ (column i).toList := by
    rw [column, String.toList_append, List.mem_append, String.toList_ofList]
    rintro (h | h)
    · exact absurd (List.eq_of_mem_replicate h) (by decide)
    · exact absurd (Text.isDigit_of_mem_toString h) (by decide)
  rw [entry, String.toList_append, String.toList_append]
  simp only [List.mem_append, not_or]
  exact ⟨⟨hcolumn, by decide⟩, h⟩

/-- Names of actions make lines without ends inside. -/
theorem not_mem_entries {names : List String} (hplain : ∀ a ∈ p.actions, '\n' ∉ a.name.toList)
    (h : plan.actions.mapM p.actionName? = some names) : ∀ x ∈ entries names, '\n' ∉ x.toList := by
  intro x hx
  obtain ⟨⟨name, i⟩, hq, rfl⟩ := List.mem_map.1 hx
  have hname : name ∈ names := List.mem_of_getElem? (List.mk_mem_zipIdx_iff_getElem?.1 hq)
  obtain ⟨a, -, ha⟩ := exists_left_of_forall₂ (mapM_eq_some_iff_forall₂.1 h) hname
  obtain ⟨action, haction, rfl⟩ := Option.map_eq_some_iff.1 ha
  exact not_mem_entry (hplain action (Array.mem_of_getElem? haction))

theorem name_eq_of_entry {i : Nat} {name name' : String} (h : entry i name = entry i name') :
    name = name' := by
  have hlist : (column i ++ ": ").toList ++ name.toList =
      (column i ++ ": ").toList ++ name'.toList := by
    rw [← String.toList_append, ← String.toList_append]
    exact congrArg String.toList h
  exact String.toList_inj.1 (List.append_cancel_left hlist)

theorem entries_injective : Function.Injective entries := by
  intro names names' h
  refine List.ext_getElem? fun i => ?_
  have hi := congrArg (·[i]?) h
  simp only [entries, List.getElem?_map, List.getElem?_zipIdx, Option.map_map] at hi
  exact Option.map_injective (fun _ _ => name_eq_of_entry) hi

theorem render?_of_names {names : List String} (h : plan.actions.mapM p.actionName? = some names) :
    plan.render? p = some (String.join ((entries names).map (· ++ "\n"))) := by
  rw [mapM_eq_some_iff] at h
  have hzip : plan.actions.zipIdx.map (fun q => (p.actionName? q.1).map (line q.2)) =
      (plan.actions.map p.actionName?).zipIdx.map fun q => q.1.map (line q.2) := by
    rw [List.zipIdx_map, List.map_map]
    rfl
  have hlines : plan.actions.zipIdx.mapM (fun q => (p.actionName? q.1).map (line q.2)) =
      some ((entries names).map (· ++ "\n")) := by
    rw [mapM_eq_some_iff, hzip, h, List.zipIdx_map, entries, List.map_map, List.map_map,
      List.map_map]
    rfl
  rw [render?, hlines, Option.map_some]

/-- **The plans that can be written** are those whose actions are declared. -/
theorem exists_render?_iff :
    (∃ text, plan.render? p = some text) ↔ ∀ a ∈ plan.actions, a.toNat < p.numActions := by
  simp only [← Problem.exists_actionName?_iff]
  constructor
  · rintro ⟨text, h⟩
    obtain ⟨lines, hlines, -⟩ := Option.map_eq_some_iff.1 h
    intro a ha
    obtain ⟨i, hi⟩ := List.mem_iff_getElem?.1 ha
    obtain ⟨line, hline⟩ := exists_mapM_eq_some_iff.1 ⟨lines, hlines⟩ (a, i)
      (List.mk_mem_zipIdx_iff_getElem?.2 hi)
    obtain ⟨name, hname, -⟩ := Option.map_eq_some_iff.1 hline
    exact ⟨name, hname⟩
  · intro h
    obtain ⟨names, hnames⟩ := exists_mapM_eq_some_iff.2 h
    exact ⟨_, render?_of_names hnames⟩

/-- **No two plans have the same text**, where the names of actions are distinct and have no line
end inside. -/
theorem eq_of_render? (hnodup : (p.actions.toList.map Action.name).Nodup)
    (hplain : ∀ a ∈ p.actions, '\n' ∉ a.name.toList)
    (hplan : ∀ a ∈ plan.actions, a.toNat < p.numActions)
    (hplan' : ∀ a ∈ plan'.actions, a.toNat < p.numActions)
    (h : plan.render? p = plan'.render? p) : plan = plan' := by
  simp only [← Problem.exists_actionName?_iff] at hplan hplan'
  obtain ⟨names, hnames⟩ := exists_mapM_eq_some_iff.2 hplan
  obtain ⟨names', hnames'⟩ := exists_mapM_eq_some_iff.2 hplan'
  -- The text determines the lines, these the names, and these the actions.
  have hentries : entries names = entries names' := by
    rw [render?_of_names hnames, render?_of_names hnames', Option.some.injEq] at h
    exact Text.eq_of_join_lines (not_mem_entries hplain hnames) (not_mem_entries hplain hnames') h
  obtain rfl := entries_injective hentries
  rw [mapM_eq_some_iff_forall₂] at hnames hnames'
  have hsame := forall₂_of_common hnames.flip hnames'.flip
  have heq : List.Forall₂ Eq plan.actions plan'.actions :=
    hsame.imp fun a b ⟨_, ha, hb⟩ => Problem.eq_of_actionName? hnodup ha hb
  rw [List.forall₂_eq_eq_eq] at heq
  exact congrArg Plan.mk heq

end Plan

/-! ## Valuations -/

theorem Object.isAction_eq_not (o : Object) : o.isAction = !o.isFluent := by cases o <;> rfl

namespace Valuation

variable {p : Problem} {v : Valuation}

/-- The fluents of a valuation, in its order. -/
def fluents (v : Valuation) : Valuation := v.filter fun q => q.1.isFluent

/-- The actions of a valuation, in its order. -/
def actions (v : Valuation) : Valuation := v.filter fun q => q.1.isAction

/-- The pairs of a valuation in two groups, of fluents and of actions, each in its order. -/
structure Grouped (v fluents actions : Valuation) : Prop where
  isFluent : ∀ q ∈ fluents, q.1.isFluent = true
  isAction : ∀ q ∈ actions, q.1.isAction = true
  fluents_sublist : fluents.Sublist v
  actions_sublist : actions.Sublist v
  /-- No pair is left out, and none is repeated. -/
  perm : (fluents ++ actions).Perm v

theorem grouped (v : Valuation) : v.Grouped v.fluents v.actions where
  isFluent := fun _ hq => (List.mem_filter.1 hq).2
  isAction := fun _ hq => (List.mem_filter.1 hq).2
  fluents_sublist := List.filter_sublist
  actions_sublist := List.filter_sublist
  perm := by
    simp only [fluents, actions, Object.isAction_eq_not]
    exact List.filter_append_perm _ v

/-- Where no fluent comes after an action, the groups stand as they do in the valuation. -/
theorem fluents_append_actions
    (h : v.Pairwise fun q q' => q.1.isAction = true → q'.1.isAction = true) :
    v.fluents ++ v.actions = v := by
  induction v with
  | nil => rfl
  | cons q v ih =>
    rw [List.pairwise_cons] at h
    rcases hq : q.1.isAction
    · have hfluent : q.1.isFluent = true := by
        rwa [Object.isAction_eq_not, Bool.not_eq_false'] at hq
      simp only [fluents, actions, List.filter_cons, hfluent, hq, if_true, Bool.false_eq_true,
        if_false, List.cons_append]
      exact congrArg (q :: ·) (ih h.2)
    · have hactions : ∀ q' ∈ q :: v, q'.1.isAction = true :=
        List.forall_mem_cons.2 ⟨hq, fun q' hq' => h.1 q' hq' hq⟩
      have hnone : fluents (q :: v) = [] := List.filter_eq_nil_iff.2 fun q' hq' hfluent => by
        have haction := hactions q' hq'
        rw [Object.isAction_eq_not, hfluent] at haction
        cases haction
      rw [hnone, actions, List.filter_eq_self.2 hactions, List.nil_append]

/-- The line of a pair. -/
def LineOf (p : Problem) (q : Object × Bool) (text : String) : Prop :=
  ∃ name, p.objectName? q.1 = some name ∧ line name q.2 = text

/-- **The text of a valuation** has the line of each pair, group by group. -/
theorem render?_eq_some_iff {text : String} : v.render? p = some text ↔
    ∃ lines, List.Forall₂ (LineOf p) (v.fluents ++ v.actions) lines ∧ String.join lines = text := by
  rw [render?, Option.map_eq_some_iff]
  simp only [mapM_eq_some_iff_forall₂, Option.map_eq_some_iff]
  exact Iff.rfl

/-- **The valuations that can be written** are those of declared objects. -/
theorem exists_render?_iff : (∃ text, v.render? p = some text) ↔ ∀ q ∈ v, p.Declares q.1 := by
  have hline : ∀ q : Object × Bool, p.Declares q.1 ↔
      ∃ text, ((p.objectName? q.1).map fun name => line name q.2) = some text := fun q => by
    rw [← Problem.exists_objectName?_iff, ← Option.isSome_iff_exists, ← Option.isSome_iff_exists,
      Option.isSome_map]
  have hmem : ∀ q, q ∈ v ↔ q ∈ v.fluents ++ v.actions := fun q => v.grouped.perm.mem_iff.symm
  have hlines : (∃ text, v.render? p = some text) ↔ ∃ lines, (v.fluents ++ v.actions).mapM
      (fun q => (p.objectName? q.1).map fun name => line name q.2) = some lines := by
    rw [← Option.isSome_iff_exists, ← Option.isSome_iff_exists, render?, Option.isSome_map]
    rfl
  rw [hlines, exists_mapM_eq_some_iff]
  simp only [hmem, hline]

end Valuation

/-! ## What is found

A model that is read back has an object of the registry for every literal, or it is refused.  So
nothing that is printed comes from elsewhere, whatever the oracle says. -/

section Solve

variable {W : Type} {o : Oracle (StateM W)} {p : Problem} {config : Config} {w w' : W}
  {s : Solution}

/-- **What is found is read off a model, literal by literal**, or nothing had to be found. -/
theorem exists_model_of_solve (h : (solve o p config).run w = (.ok (.plan s), w')) :
    s = ⟨.empty, []⟩ ∨ ∃ r cs m, encodeProblem p config = .ok (r, cs) ∧
      (o.consult r.size (max config.expectedClauses.toNat cs.length) cs).run w =
        (.ok (.satisfiable m), w') ∧
      List.Forall₂ (fun l q => p.objects[l.var.index]? = some q.1 ∧ l.positive = q.2)
        m.lits s.valuation ∧ s.plan = .ofValuation s.valuation := by
  obtain ⟨fault, -, hresult⟩ | ⟨r, cs, henc, ⟨-, hresult⟩ | ⟨-, answer, hrun, hresult⟩⟩ :=
    solve_cases h
  · cases hresult
  · cases hresult
    exact .inl rfl
  · have hreads := reads_ofAnswer (encodeProblem_eq_ok_iff.1 henc).1 answer
    rw [← hresult] at hreads
    cases hreads with
    | plan values => exact .inr ⟨r, cs, _, henc, hrun, values, rfl⟩

/-- **What is found is declared**, whatever the oracle answers. -/
theorem declares_of_solve (h : (solve o p config).run w = (.ok (.plan s), w')) :
    (∀ a ∈ s.plan.actions, a.toNat < p.numActions) ∧ ∀ q ∈ s.valuation, p.Declares q.1 := by
  rcases exists_model_of_solve h with rfl | ⟨r, cs, m, -, -, hvalues, hplan⟩
  · exact ⟨List.forall_mem_nil _, List.forall_mem_nil _⟩
  · have hvaluation : ∀ q ∈ s.valuation, p.Declares q.1 := fun q hq => by
      obtain ⟨l, -, hl, -⟩ := exists_left_of_forall₂ hvalues hq
      exact Problem.declares_of_mem_objects (List.mem_of_getElem? hl)
    refine ⟨fun a ha => ?_, hvaluation⟩
    rw [hplan, Plan.mem_ofValuation_iff] at ha
    exact hvaluation _ ha

/-- A model in the order of its variables is written in its order. -/
theorem fluents_append_actions_of_values {lits : List Lit} {v : Valuation}
    (hvalues : List.Forall₂
      (fun l q => p.objects[l.var.index]? = some q.1 ∧ l.positive = q.2) lits v)
    (hlits : lits.Pairwise fun l k => l.var.index ≤ k.var.index) : v.fluents ++ v.actions = v := by
  refine Valuation.fluents_append_actions (pairwise_of_forall₂ hvalues ?_ hlits)
  rintro l k q q' ⟨hq, -⟩ ⟨hq', -⟩ hle haction
  rw [Problem.isAction_iff_le hq] at haction
  rw [Problem.isAction_iff_le hq']
  exact Nat.le_trans haction hle

/-- **Whatever is found can be written, and nothing is lost.**  A problem can be written.  With any
oracle, the actions of a plan and the objects of a valuation are declared, so both can be written;
the text of the valuation is one line for each pair, first the fluents and then the actions, in the
order of the model if that goes by the variables.  Where the names of actions are distinct and have
no line end inside, no two plans of declared actions have the same text. -/
theorem solve_renders_injectively (o : Oracle (StateM W)) (p : Problem) (config : Config) (w : W) :
    p.render? = some p.render ∧
    (∀ s w', (solve o p config).run w = (.ok (.plan s), w') →
      (∀ a ∈ s.plan.actions, a.toNat < p.numActions) ∧ (∀ q ∈ s.valuation, p.Declares q.1) ∧
      (∃ text, s.plan.render? p = some text) ∧
      ∃ fluents actions lines, s.valuation.Grouped fluents actions ∧
        List.Forall₂ (Valuation.LineOf p) (fluents ++ actions) lines ∧
        s.valuation.render? p = some (String.join lines) ∧
        ∀ r cs m w₁, encodeProblem p config = .ok (r, cs) →
          (o.consult r.size (max config.expectedClauses.toNat cs.length) cs).run w =
            (.ok (.satisfiable m), w₁) →
          (m.lits.Pairwise fun l k => l.var.index ≤ k.var.index) →
            fluents ++ actions = s.valuation) ∧
    ((p.actions.toList.map Action.name).Nodup → (∀ a ∈ p.actions, '\n' ∉ a.name.toList) →
      ∀ plan plan' : Plan, (∀ a ∈ plan.actions, a.toNat < p.numActions) →
        (∀ a ∈ plan'.actions, a.toNat < p.numActions) →
          plan.render? p = plan'.render? p → plan = plan') := by
  refine ⟨p.render?_eq, fun s w' h => ?_, fun hnodup hplain plan plan' hplan hplan' htext =>
    Plan.eq_of_render? hnodup hplain hplan hplan' htext⟩
  obtain ⟨hplan, hvaluation⟩ := declares_of_solve h
  obtain ⟨text, htext⟩ := Valuation.exists_render?_iff.2 hvaluation
  obtain ⟨lines, hlines, rfl⟩ := Valuation.render?_eq_some_iff.1 htext
  refine ⟨hplan, hvaluation, Plan.exists_render?_iff.2 hplan, _, _, lines, s.valuation.grouped,
    hlines, htext, fun r cs m w₁ henc hrun hordered => ?_⟩
  rcases exists_model_of_solve h with rfl | ⟨r', cs', m', henc', hrun', hvalues, -⟩
  · rfl
  · rw [henc] at henc'
    cases henc'
    rw [hrun] at hrun'
    cases hrun'
    exact fluents_append_actions_of_values hvalues hordered

end Solve

/-! ## An oracle that answers without listening -/

/-- The oracle that accepts everything and always answers with the same literals. -/
def parrot (lits : List Lit) : Oracle (StateM Unit) where
  Instance := Unit
  newInstance := fun _ _ => pure ()
  addClause := fun _ _ => pure (.ok ())
  verdict := fun _ => pure (.ok (.satisfiable ⟨lits⟩))

section Parrot

variable {p : Problem} {config : Config} {lits : List Lit}

theorem run_consult_parrot (lits : List Lit) (n expected : Nat) (cs : List Clause) :
    ((parrot lits).consult n expected cs).run () = (.ok (.satisfiable ⟨lits⟩), ()) :=
  Oracle.run_consult_of_accepts (fun _ _ _ => rfl) expected cs ()

/-- The objects of the literals, with the literals' signs. -/
def Problem.reading (p : Problem) (lits : List Lit) : Valuation :=
  lits.filterMap fun l => (p.objects[l.var.index]?).map fun o => (o, l.positive)

theorem Problem.eq_reading {v : Valuation}
    (h : List.Forall₂ (fun l q => p.objects[l.var.index]? = some q.1 ∧ l.positive = q.2) lits v) :
    v = p.reading lits := by
  induction h with
  | nil => rfl
  | @cons l q lits v hq _ ih =>
    have hl : ((p.objects[l.var.index]?).map fun o => (o, l.positive)) = some q := by
      rw [hq.1, hq.2, Option.map_some]
    rw [reading, List.filterMap_cons, hl, ih, reading]

theorem run_solve_parrot (henc : ∃ r cs, encodeProblem p config = .ok (r, cs))
    (hgoal : p.goalHoldsInitially = false)
    (hinside : ∀ l ∈ lits, l.var.id ≤ p.numFluents + p.numActions) :
    (solve (parrot lits) p config).run () =
      (.ok (.plan ⟨.ofValuation (p.reading lits), p.reading lits⟩), ()) := by
  obtain ⟨r, cs, henc⟩ := henc
  have hreads := reads_ofAnswer (encodeProblem_eq_ok_iff.1 henc).1 (.ok (.satisfiable ⟨lits⟩))
  rw [run_solve, henc]
  simp only [hgoal, Bool.false_eq_true, if_false, run_consult_parrot]
  generalize Outcome.ofAnswer r (.ok (.satisfiable ⟨lits⟩)) = result at hreads ⊢
  cases hreads with
  | beyond _ outside =>
    exact absurd (hinside _ (List.mem_append_right _ List.mem_cons_self)) (Nat.not_le.2 outside)
  | plan values => rw [Problem.eq_reading values]

end Parrot

/-- A model with an action before the fluent and the action again both ways, and one in order. -/
theorem solve_renders_injectively_parrot :
    (∃ s, (solve (parrot ([2, 1, -2, 2].filterMap Lit.ofInt?)) errand ⟨2, 0, none⟩).run () =
        (.ok (.plan s), ()) ∧
      s.plan.render? errand = some "  0: finish\n  1: finish\n" ∧
      s.valuation.render? errand = some "+ done\n+ finish\n- finish\n+ finish\n" ∧
      (∀ q ∈ s.valuation, errand.Declares q.1) ∧
      ∀ plan : Plan, (∀ a ∈ plan.actions, a.toNat < errand.numActions) →
        plan.render? errand = s.plan.render? errand → plan = s.plan) ∧
    ∃ s fluents actions,
      (solve (parrot ([-1, 2].filterMap Lit.ofInt?)) errand ⟨2, 0, none⟩).run () =
        (.ok (.plan s), ()) ∧
      s.valuation.Grouped fluents actions ∧ fluents ++ actions = s.valuation := by
  obtain ⟨r, cs, henc⟩ : ∃ r cs, encodeProblem errand ⟨2, 0, none⟩ = .ok (r, cs) :=
    exists_encodeProblem_iff.2 (by decide)
  have hgoal : errand.goalHoldsInitially = false := by decide
  constructor
  · have hinside : ∀ l ∈ [2, 1, -2, 2].filterMap Lit.ofInt?,
        l.var.id ≤ errand.numFluents + errand.numActions := by decide
    have hrun := run_solve_parrot ⟨r, cs, henc⟩ hgoal hinside
    obtain ⟨-, hfound, htold⟩ := solve_renders_injectively (parrot _) errand ⟨2, 0, none⟩ ()
    obtain ⟨hplan, hvaluation, -, -⟩ := hfound _ () hrun
    exact ⟨_, hrun, rfl, rfl, hvaluation, fun plan hdeclared =>
      htold (by decide) (by decide) plan _ hdeclared hplan⟩
  · have hinside : ∀ l ∈ [-1, 2].filterMap Lit.ofInt?,
        l.var.id ≤ errand.numFluents + errand.numActions := by decide
    have hrun := run_solve_parrot ⟨r, cs, henc⟩ hgoal hinside
    obtain ⟨-, hfound, -⟩ := solve_renders_injectively (parrot _) errand ⟨2, 0, none⟩ ()
    obtain ⟨-, -, -, fluents, actions, lines, hgrouped, -, -, hordered⟩ := hfound _ () hrun
    exact ⟨_, fluents, actions, hrun, hgrouped,
      hordered r cs _ () henc (run_consult_parrot ..) (by decide)⟩

end SnapshotPlan
