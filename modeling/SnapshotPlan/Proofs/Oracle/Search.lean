import SnapshotPlan.Oracle.Buffer
import SnapshotPlan.Proofs.Logic.Models
import SnapshotPlan.Proofs.Oracle.Contract

/-!
# The built-in oracle keeps to its contracts

The built-in oracle collects clauses in a buffer and decides them when it is asked.  Its decisions
carry their own proofs, so what is left to show is about the collecting, and about the model that
is made of a satisfying assignment.

## What is here

* `usedValues_getElem?` and `meets_usedValues` — the model drops what the assignment says about
  variables that no clause uses, and satisfies the clauses all the same.
* `Buffer.Keeps` — what a buffer knows about the clauses that it has accepted, and
  `Buffer.Collects`, what it knows besides until it reports a contradiction.  `Keeps.add`,
  `Keeps.refuse` and `Collects.add`: offering one more keeps it up.
* `answersModels_searchOracle`, `refusesOnlyBlatant_searchOracle` and
  `deniesOnlyUnsatisfiable_searchOracle` — **the contracts.**
-/

set_option autoImplicit false

namespace SnapshotPlan
namespace Buffer

/-! ## The model of an assignment

Values are set in an array of the announced size.  A variable beyond the array would be lost, but
accepted clauses have none. -/

section Values

variable {σ : Assignment} {n : Nat} {cs : List Clause}

theorem size_foldl_setIfInBounds (σ : Assignment) (ls : List Lit) (values : Array Bool) :
    (ls.foldl (fun values l => values.setIfInBounds l.var.index (σ l.var)) values).size =
      values.size := by
  induction ls generalizing values with
  | nil => rfl
  | cons l ls ih => rw [List.foldl_cons, ih, Array.size_setIfInBounds]

/-- Writing the values of literals one after another leaves the assignment's value wherever there
is a literal, and what was there before elsewhere. -/
theorem foldl_setIfInBounds_getElem? {ls : List Lit} {values : Array Bool} {v : Var}
    (hv : v.index < values.size) :
    (ls.foldl (fun values l => values.setIfInBounds l.var.index (σ l.var)) values)[v.index]? =
      if v ∈ ls.map Lit.var then some (σ v) else values[v.index]? := by
  induction ls generalizing values with
  | nil => rfl
  | cons l ls ih =>
    rw [List.foldl_cons, ih (by rw [Array.size_setIfInBounds]; exact hv), List.map_cons]
    by_cases hl : l.var = v
    · rw [hl, Array.getElem?_setIfInBounds_self_of_lt hv, ite_self, if_pos List.mem_cons_self]
    · have hne : l.var.index ≠ v.index := fun h => hl (Var.index_inj.1 h)
      rw [Array.getElem?_setIfInBounds_ne hne]
      simp only [List.mem_cons, Ne.symm hl, false_or]

theorem size_usedValues : (usedValues n cs σ).size = n := by
  rw [usedValues, size_foldl_setIfInBounds, Array.size_replicate]

/-- **A variable has the assignment's value if some clause uses it**, and is false otherwise. -/
theorem usedValues_getElem? {v : Var} (hv : v.index < n) :
    (usedValues n cs σ)[v.index]? =
      some (decide (v ∈ (cs.flatMap Clause.lits).map Lit.var) && σ v) := by
  rw [usedValues, foldl_setIfInBounds_getElem? (by rw [Array.size_replicate]; exact hv),
    Array.getElem?_replicate, if_pos hv]
  by_cases hmem : v ∈ (cs.flatMap Clause.lits).map Lit.var <;> simp [hmem]

theorem length_ofValues_usedValues :
    (Model.ofValues (usedValues n cs σ).toList).lits.length = min n Var.maxId := by
  rw [Model.length_ofValues, Array.length_toList, size_usedValues]

/-- The model satisfies the clauses, since it agrees with the assignment where they look. -/
theorem meets_usedValues (inside : ∀ c ∈ cs, ∀ l ∈ c.lits, l.var.id ≤ n)
    (hσ : Satisfies σ cs) : (Model.ofValues (usedValues n cs σ).toList).meets cs = true := by
  refine Model.meets_of_satisfies Model.ordered_ofValues ?_ fun c hc => ?_
  · rw [length_ofValues_usedValues]
    exact fun c hc l hl => Nat.le_min.2 ⟨inside c hc l hl, l.var.id_le⟩
  · obtain ⟨l, hl, hholds⟩ := hσ c hc
    have hlt : l.var.index < n := by
      have hle := inside c hc l hl
      rw [l.var.id_eq_index_succ] at hle
      exact hle
    have hused : l.var ∈ (cs.flatMap Clause.lits).map Lit.var :=
      List.mem_map_of_mem (List.mem_flatMap.2 ⟨c, hc, hl⟩)
    refine ⟨l, hl, Model.assignment_ofValues ?_⟩
    rw [Array.getElem?_toList, usedValues_getElem? hlt, decide_eq_true hused, Bool.true_and, hholds]

end Values

/-! ## Collecting clauses

Two invariants, the second stronger.  `Keeps` survives any refusal and is enough for the verdict;
`Collects` ends with the first contradiction, where the remembered signs stop being those of
accepted clauses. -/

/-- The buffer has been opened for the variables `1, …, n`, and the listed clauses are those that it
has accepted. -/
structure Keeps (n : Nat) (limit : Option Duration) (cs : List Clause) (b : Buffer) : Prop where
  maxVariables_eq : b.maxVariables = n
  limit_eq : b.limit = limit
  clauses_eq : b.clauses = cs
  /-- No clause has a variable beyond the last. -/
  inside : ∀ c ∈ cs, ∀ l ∈ c.lits, l.var.id ≤ n

/-- Besides, no contradiction has been reported so far. -/
structure Collects (n : Nat) (limit : Option Duration) (cs : List Clause) (b : Buffer) : Prop
    extends Keeps n limit cs b where
  /-- The signs remembered are those of the clauses of one literal. -/
  units_iff : ∀ (v : Var) (s : Bool), b.units[v]? = some s ↔ ⟨[⟨v, s⟩]⟩ ∈ cs

variable {n : Nat} {limit : Option Duration} {cs : List Clause} {b b' : Buffer} {c : Clause}

theorem collects_blank : (blank n limit).Collects n limit [] where
  maxVariables_eq := rfl
  limit_eq := rfl
  clauses_eq := rfl
  inside := fun c hc => nomatch hc
  units_iff := fun v s => by simp [blank]

theorem firstOutside?_eq_none_iff :
    b.firstOutside? c = none ↔ ∀ l ∈ c.lits, l.var.id ≤ b.maxVariables := by
  simp [firstOutside?]

theorem firstOutside?_eq_some_iff {l : Lit} :
    b.firstOutside? c = some l ↔ ∃ before after, c.lits = before ++ l :: after ∧
      b.maxVariables < l.var.id ∧ ∀ k ∈ before, k.var.id ≤ b.maxVariables := by
  simp only [firstOutside?, List.find?_eq_some_iff_append, decide_eq_true_eq, Bool.not_eq_true',
    decide_eq_false_iff_not, Nat.not_lt]
  exact ⟨fun ⟨hl, before, after, hlits, hfirst⟩ => ⟨before, after, hlits, hl, hfirst⟩,
    fun ⟨before, after, hlits, hl, hfirst⟩ => ⟨hl, before, after, hlits, hfirst⟩⟩

/-- A clause is taken for a contradiction if it is empty, or one literal whose opposite is
remembered. -/
theorem contradicts_iff : b.contradicts c = true ↔
    c.lits = [] ∨ ∃ l : Lit, c.lits = [l] ∧ b.units[l.var]? = some (!l.positive) := by
  rw [contradicts]
  split
  · next hnil => exact iff_of_true rfl (.inl hnil)
  · next l hl =>
    simp only [hl, List.cons_ne_nil, false_or, List.cons.injEq, and_true, exists_eq_left']
    rcases b.units[l.var]? with _ | s
    · simp
    · cases s <;> cases l.positive <;> decide
  · next hnil hone =>
    exact iff_of_false Bool.false_ne_true fun h => h.elim hnil fun ⟨l, hl, _⟩ => hone l hl

/-- Remembering a sign leaves everything else as it is. -/
theorem remember_eq (b : Buffer) (c : Clause) :
    b.remember c = { b with units := (b.remember c).units } := by
  rw [remember]
  split <;> rfl

/-- **What offering a clause comes to**: it has a variable beyond the last, or it cannot be
satisfied on its face, or it is accepted. -/
theorem add_cases (b : Buffer) (c : Clause) :
    (∃ l, b.firstOutside? c = some l ∧
      b.add c = (.error (.variableOutOfBounds l b.maxVariables), b)) ∨
    (b.firstOutside? c = none ∧ b.contradicts c = true ∧
      b.add c = (.error (.contradiction b.accepted.size c), b.remember c)) ∨
    b.firstOutside? c = none ∧ b.contradicts c = false ∧ b.add c =
      (.ok (), { b with units := (b.remember c).units, accepted := b.accepted.push c }) := by
  rw [add, remember_eq]
  rcases b.firstOutside? c with _ | l
  · rcases b.contradicts c
    · exact .inr (.inr ⟨rfl, rfl, rfl⟩)
    · exact .inr (.inl ⟨rfl, rfl, rfl⟩)
  · exact .inl ⟨l, rfl, rfl⟩

/-- What it takes for a clause to be accepted, and what the buffer is afterwards. -/
theorem add_eq_ok_iff : b.add c = (.ok (), b') ↔ (∀ l ∈ c.lits, l.var.id ≤ b.maxVariables) ∧
    b.contradicts c = false ∧
      b' = { b with units := (b.remember c).units, accepted := b.accepted.push c } := by
  rw [← firstOutside?_eq_none_iff]
  obtain ⟨l, hout, hadd⟩ | ⟨hin, hcontra, hadd⟩ | ⟨hin, hcontra, hadd⟩ := b.add_cases c
  · simp [hadd, hout]
  · simp [hadd, hcontra]
  · simp [hadd, hin, hcontra, eq_comm]

/-- What is left of a clause that is refused. -/
theorem eq_of_add_eq_error {fault : OracleFault} (h : b.add c = (.error fault, b')) :
    b' = { b with units := b'.units } := by
  obtain ⟨l, -, hadd⟩ | ⟨-, -, hadd⟩ | ⟨-, -, hadd⟩ := b.add_cases c
  · rw [hadd] at h
    cases h
    rfl
  · rw [hadd] at h
    cases h
    exact remember_eq b c
  · rw [hadd] at h
    cases h

/-- **Accepting one more clause.** -/
theorem Keeps.add (h : b.Keeps n limit cs) (hadd : b.add c = (.ok (), b')) :
    b'.Keeps n limit (cs ++ [c]) := by
  obtain ⟨hinside, -, rfl⟩ := add_eq_ok_iff.1 hadd
  rw [h.maxVariables_eq] at hinside
  refine ⟨h.maxVariables_eq, h.limit_eq, ?_, ?_⟩
  · rw [clauses, Array.toList_push, ← h.clauses_eq, clauses]
  · exact List.forall_mem_append.2 ⟨h.inside, List.forall_mem_singleton.2 hinside⟩

/-- **Refusing one.** -/
theorem Keeps.refuse (h : b.Keeps n limit cs) {fault : OracleFault}
    (hadd : b.add c = (.error fault, b')) : b'.Keeps n limit cs := by
  rw [eq_of_add_eq_error hadd]
  exact ⟨h.maxVariables_eq, h.limit_eq, h.clauses_eq, h.inside⟩

theorem remember_of_length_ne_one (h : c.lits.length ≠ 1) : b.remember c = b := by
  rw [remember]
  split
  · next l hl => simp [hl] at h
  · rfl

/-- A clause of one literal is accepted only if no opposite one is remembered. -/
theorem units_of_contradicts {l : Lit} (h : b.contradicts ⟨[l]⟩ = false) {s : Bool}
    (hs : b.units[l.var]? = some s) : s = l.positive := by
  simpa [contradicts, hs] using h

/-- Accepting one more clause while none has been refused. -/
theorem Collects.add (h : b.Collects n limit cs) (hadd : b.add c = (.ok (), b')) :
    b'.Collects n limit (cs ++ [c]) := by
  refine ⟨h.toKeeps.add hadd, fun v s => ?_⟩
  obtain ⟨-, hcontra, rfl⟩ := add_eq_ok_iff.1 hadd
  rw [List.mem_append, List.mem_singleton, ← h.units_iff]
  by_cases hone : c.lits.length = 1
  · obtain ⟨l, hl⟩ := List.length_eq_one_iff.1 hone
    obtain rfl : c = ⟨[l]⟩ := by rw [← hl]
    show (b.units.insert l.var l.positive)[v]? = some s ↔ _
    rw [Std.HashMap.getElem?_insert]
    by_cases hv : l.var = v
    · subst hv
      simp only [beq_self_eq_true, if_true, Option.some.injEq]
      constructor
      · rintro rfl
        exact .inr rfl
      · rintro (hs | hs)
        · exact (units_of_contradicts hcontra hs).symm
        · exact (congrArg Lit.positive (List.cons.inj (Clause.mk.inj hs)).1).symm
    · have hne : (⟨[⟨v, s⟩]⟩ : Clause) ≠ ⟨[l]⟩ := by
        rintro heq
        cases heq
        exact hv rfl
      simp [hv, hne]
  · have hne : (⟨[⟨v, s⟩]⟩ : Clause) ≠ c := by
      rintro rfl
      exact hone rfl
    rw [remember_of_length_ne_one hone]
    simp only [hne, or_false]

/-- **A clause contradicts the accepted ones on its face** if it is empty, or if the opposite clause
of one literal is among them. -/
theorem Collects.contradicts_iff (h : b.Collects n limit cs) :
    b.contradicts c = true ↔ c.lits = [] ∨ ∃ l : Lit, c.lits = [l] ∧ ⟨[l.negate]⟩ ∈ cs := by
  rw [Buffer.contradicts_iff]
  simp only [h.units_iff]
  rfl

/-- **What is refused is blatant.** -/
theorem Collects.blatant (h : b.Collects n limit cs) {fault : OracleFault}
    (hadd : b.add c = (.error fault, b')) : Oracle.Blatant n cs c := by
  obtain ⟨l, hout, -⟩ | ⟨-, hcontra, -⟩ | ⟨-, -, hok⟩ := b.add_cases c
  · obtain ⟨before, after, hlits, hl, -⟩ := firstOutside?_eq_some_iff.1 hout
    rw [h.maxVariables_eq] at hl
    exact .inr (.inr ⟨l, by simp [hlits], hl⟩)
  · obtain hnil | hunit := h.contradicts_iff.1 hcontra
    · exact .inl hnil
    · exact .inr (.inl hunit)
  · rw [hok] at hadd
    cases hadd

/-- Whatever comes of waiting, an answer is a decision about the clauses. -/
theorem answerTo_eq_ok_iff {limit : Duration} {a : Awaited b.clauses} {v : Verdict} :
    b.answerTo limit a = .ok v ↔ ∃ d, a = .decided d ∧ b.verdictOf d = v := by
  cases a <;> simp [answerTo]

/-- If there is none, then time has run out or the search itself has failed. -/
theorem not_isRefusal_of_answerTo {limit : Duration} {a : Awaited b.clauses} {fault : OracleFault}
    (h : b.answerTo limit a = .error fault) : ¬ fault.IsRefusal := by
  cases a <;> cases h <;> exact not_false

section Asking

variable {W : Type} {search : TimedSearch (StateM W)} {w w' : W}

/-- **Asking for a verdict** comes to a decision at once, or to what waiting for one amounts to. -/
theorem run_verdict_cases {answer : Except OracleFault Verdict}
    (h : (b.verdict search).run w = (answer, w')) :
    answer = .ok (b.verdictOf (.reach b.clauses)) ∨
      ∃ limit a, (search limit b.clauses).run w = (a, w') ∧ b.answerTo limit a = answer := by
  rw [verdict] at h
  split at h
  · exact .inl (congrArg Prod.fst h).symm
  · next limit _ =>
    rcases hsearch : (search limit b.clauses).run w with ⟨a, w₁⟩
    rw [StateT.run_map, hsearch] at h
    cases h
    exact .inr ⟨limit, a, hsearch, rfl⟩

/-- A verdict comes from a decision about the clauses. -/
theorem exists_decision_of_verdict {v : Verdict} (h : (b.verdict search).run w = (.ok v, w')) :
    ∃ d : Decision b.clauses, b.verdictOf d = v := by
  obtain hok | ⟨limit, a, -, ha⟩ := run_verdict_cases h
  · exact ⟨_, (Except.ok.inj hok).symm⟩
  · obtain ⟨d, -, hd⟩ := answerTo_eq_ok_iff.1 ha
    exact ⟨d, hd⟩

/-- Once the clauses are collected, none of them is refused any more. -/
theorem not_isRefusal_of_verdict {fault : OracleFault}
    (h : (b.verdict search).run w = (.error fault, w')) : ¬ fault.IsRefusal := by
  obtain hok | ⟨limit, a, -, ha⟩ := run_verdict_cases h
  · cases hok
  · exact not_isRefusal_of_answerTo ha

end Asking

end Buffer

/-! ## The contracts

They hold whatever the timed search does, and in whatever world it acts: what it says is a decision,
and what it fails to say is no refusal. -/

section Contracts

variable {W : Type} {search : TimedSearch (StateM W)} {limit : Option Duration}

/-- What offering a clause to the oracle comes to. -/
theorem eq_of_run_addClause {b : (searchOracle search limit).Instance} {c : Clause} {w w' : W}
    {answer : Except OracleFault (searchOracle search limit).Instance}
    (h : ((searchOracle search limit).addClause b c).run w = (answer, w')) :
    (Buffer.add b c).1.map (fun _ => (Buffer.add b c).2) = answer :=
  congrArg Prod.fst h

/-- Whatever an instance has been through, its buffer knows. -/
theorem collects_of_accepted {n : Nat} {cs : List Clause}
    {b : (searchOracle search limit).Instance} {w : W}
    (h : (searchOracle search limit).Accepted n cs b w) : Buffer.Collects n limit cs b := by
  induction h with
  | opened h =>
    cases h
    exact Buffer.collects_blank
  | @added cs c b b' w w' _ hadd ih =>
    have hok := eq_of_run_addClause hadd
    rcases hb : Buffer.add b c with ⟨fault | _, b''⟩
    · rw [hb] at hok
      cases hok
    · rw [hb] at hok
      cases hok
      exact ih.add hb

theorem answersModels_searchOracle : (searchOracle search limit).AnswersModels := by
  intro n cs b w w' m hn hacc hverdict
  have hb := collects_of_accepted hacc
  obtain ⟨⟨σ, hσ⟩ | never, hd⟩ := Buffer.exists_decision_of_verdict hverdict
  · obtain rfl := Verdict.satisfiable.inj hd
    rw [hb.clauses_eq] at hσ
    rw [hb.maxVariables_eq, hb.clauses_eq]
    refine ⟨?_, Model.ordered_ofValues, Buffer.meets_usedValues hb.inside hσ⟩
    rw [Buffer.length_ofValues_usedValues, Nat.min_eq_left hn]
  · cases hd

theorem refusesOnlyBlatant_searchOracle : (searchOracle search limit).RefusesOnlyBlatant where
  offered := by
    intro n cs b w w' c fault hacc hadd _
    have herr := eq_of_run_addClause hadd
    rcases hb : Buffer.add b c with ⟨fault' | _, b''⟩
    · exact (collects_of_accepted hacc).blatant hb
    · rw [hb] at herr
      cases herr
  late := by
    intro n cs b w w' fault hacc hverdict hrefusal
    exact absurd hrefusal (Buffer.not_isRefusal_of_verdict hverdict)

theorem deniesOnlyUnsatisfiable_searchOracle :
    (searchOracle search limit).DeniesOnlyUnsatisfiable := by
  intro n cs b w w' hacc hverdict σ hσ
  obtain ⟨⟨σ', hσ'⟩ | never, hd⟩ := Buffer.exists_decision_of_verdict hverdict
  · cases hd
  · rw [← (collects_of_accepted hacc).clauses_eq] at hσ
    exact never σ hσ

end Contracts
end SnapshotPlan
