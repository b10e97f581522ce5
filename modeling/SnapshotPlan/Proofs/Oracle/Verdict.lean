import SnapshotPlan.Proofs.Logic.Lookup
import SnapshotPlan.Proofs.Oracle.Search

/-!
# The verdict on the clauses that were accepted

A buffer may be offered clauses after it has refused some.  Its verdict is on those that it has
accepted, and without a time limit it always has one.

## What is here

* `Buffer.offerAll` — offering clauses in spite of refusals, and `keeps_offerAll`, what the buffer
  knows in the end.
* `Model.Answers` — what a model has to be like to answer for a list of clauses, and
  `answers_usedValues`: what is made of a satisfying assignment is like this.
* `Buffer.verdict_decides_accepted` — **the verdict is that of logic**, and
  `Buffer.verdict_beyond_maxId`, a buffer opened for more variables than there are.
-/

set_option autoImplicit false

namespace SnapshotPlan

/-! ## Models that answer for clauses

What is asked of a model is said of its literals alone, in terms that do not mention how it was
made: how many there are, which variable each is about, and what they say about the clauses. -/

/-- The model answers for the clauses over the variables up to `n`. -/
structure Model.Answers (n : Nat) (cs : List Clause) (m : Model) : Prop where
  /-- There is one literal for each of the variables `1, …, n` that there are. -/
  length_eq : m.lits.length = min n Var.maxId
  /-- The literals are about the variables in their order. -/
  id_eq : ∀ (i : Nat) (l : Lit), m.lits[i]? = some l → l.var.id = i + 1
  /-- Some literal of each clause is listed. -/
  meets : ∀ c ∈ cs, ∃ l ∈ c.lits, l ∈ m.lits
  /-- A variable that no clause uses is false. -/
  unused : ∀ v : Var, v.id ≤ n → (∀ c ∈ cs, ∀ l ∈ c.lits, l.var ≠ v) → m.value? v = some false

namespace Buffer

variable {n : Nat} {limit : Option Duration} {cs : List Clause} {b : Buffer} {σ : Assignment}

/-- **The values of the variables that are used, and false for the others, make an answer.** -/
theorem answers_usedValues (inside : ∀ c ∈ cs, ∀ l ∈ c.lits, l.var.id ≤ n)
    (hσ : Satisfies σ cs) : (Model.ofValues (usedValues n cs σ).toList).Answers n cs where
  length_eq := length_ofValues_usedValues
  id_eq := fun i l hl => by
    rw [l.var.id_eq_index_succ, (Model.getElem?_ofValues_iff.1 hl).1]
  meets := Model.meets_iff.1 (meets_usedValues inside hσ)
  unused := fun v hv hunused => by
    have hlt : v.index < n := by
      rw [v.id_eq_index_succ] at hv
      exact hv
    have hnone : v ∉ (cs.flatMap Clause.lits).map Lit.var := fun hmem => by
      obtain ⟨l, hl, hlv⟩ := List.mem_map.1 hmem
      obtain ⟨c, hc, hlc⟩ := List.mem_flatMap.1 hl
      exact hunused c hc l hlc hlv
    rw [Model.value?_ofValues, Array.getElem?_toList, usedValues_getElem? hlt,
      decide_eq_false hnone, Bool.false_and]

/-! ## Offering clauses in spite of refusals -/

/-- Offers clauses in order and goes on after a refusal.  Returns those that were accepted, and the
buffer afterwards. -/
def offerAll (b : Buffer) : List Clause → List Clause × Buffer
  | [] => ([], b)
  | c :: cs =>
    match b.add c with
    | (.ok (), b') => (c :: (b'.offerAll cs).1, (b'.offerAll cs).2)
    | (.error _, b') => b'.offerAll cs

/-- **The buffer knows the clauses that it has accepted**, whatever it has refused. -/
theorem keeps_offerAll {offered : List Clause} : ∀ {cs : List Clause} {b : Buffer},
    b.Keeps n limit cs → (b.offerAll offered).2.Keeps n limit (cs ++ (b.offerAll offered).1) := by
  induction offered with
  | nil =>
    intro cs b h
    rw [offerAll, List.append_nil]
    exact h
  | cons c offered ih =>
    intro cs b h
    rcases hadd : b.add c with ⟨fault | _, b'⟩
    · simp only [offerAll, hadd]
      exact ih (h.refuse hadd)
    · simp only [offerAll, hadd]
      rw [← List.singleton_append, ← List.append_assoc]
      exact ih (h.add hadd)

/-! ## The verdict -/

/-- Without a time limit there is a verdict, and it comes from a decision about the clauses. -/
theorem verdict_of_keeps {m : Type → Type} [Monad m] (search : TimedSearch m)
    (h : b.Keeps n none cs) :
    (∃ a, b.verdict search = pure (.ok (.satisfiable a)) ∧ a.Answers n cs ∧ ∃ σ, Satisfies σ cs) ∨
      b.verdict search = pure (.ok .unsatisfiable) ∧ ¬ ∃ σ, Satisfies σ cs := by
  obtain ⟨hn, hlimit, hcs, inside⟩ := h
  subst hn hcs
  rw [verdict, hlimit]
  rcases Decision.reach b.clauses with ⟨σ, hσ⟩ | never
  · exact .inl ⟨_, rfl, answers_usedValues inside hσ, σ, hσ⟩
  · exact .inr ⟨rfl, not_exists.2 never⟩

/-- **The verdict is that of logic.**  Whatever clauses are offered, and whichever of them are
accepted: without a time limit there is a verdict, and it is a model that answers for those clauses
if they can be satisfied, and that they cannot be satisfied otherwise. -/
theorem verdict_decides_accepted (n : Nat) (offered : List Clause) {m : Type → Type} [Monad m]
    (search : TimedSearch m) :
    let accepted := ((blank n none).offerAll offered).1
    let b := ((blank n none).offerAll offered).2
    b.clauses = accepted ∧ ∃ v : Verdict, b.verdict search = pure (.ok v) ∧
      ((∃ a, v = .satisfiable a) ↔ ∃ σ, Satisfies σ accepted) ∧
      (∀ a, v = .satisfiable a → a.Answers n accepted) ∧
      (v = .unsatisfiable ↔ ¬ ∃ σ, Satisfies σ accepted) := by
  intro accepted b
  have hkeeps : b.Keeps n none accepted := keeps_offerAll collects_blank.toKeeps
  refine ⟨hkeeps.clauses_eq, ?_⟩
  obtain ⟨a, ha, hanswers, hsat⟩ | ⟨hun, hunsat⟩ := verdict_of_keeps search hkeeps
  · refine ⟨_, ha, iff_of_true ⟨a, rfl⟩ hsat, fun a' ha' => ?_, iff_of_false nofun (not_not.2 hsat)⟩
    cases ha'
    exact hanswers
  · exact ⟨_, hun, iff_of_false nofun hunsat, nofun, iff_of_true rfl hunsat⟩

/-- **There are fewer variables than numbers.**  A buffer that is opened for `2 ^ 31` variables and
offered nothing has a model, which is one literal short: there is no variable of that number. -/
theorem verdict_beyond_maxId :
    let b := ((blank 2147483648 none).offerAll []).2
    ∃ a : Model, b.verdict (m := Id) .alwaysLate = .ok (.satisfiable a) ∧
      a.lits.length = 2147483647 := by
  intro b
  have hkeeps : b.Keeps 2147483648 none [] := collects_blank.toKeeps
  obtain ⟨a, ha, hanswers, -⟩ | ⟨-, hunsat⟩ := verdict_of_keeps (m := Id) .alwaysLate hkeeps
  · exact ⟨a, ha, hanswers.length_eq⟩
  · exact absurd ⟨fun _ => false, fun c hc => nomatch hc⟩ hunsat

end Buffer
end SnapshotPlan
