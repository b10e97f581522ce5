import SnapshotPlan.Oracle.Basic

/-!
# What may be expected of an oracle

An oracle may do anything: it may keep a state of its own outside of its instances, and whatever it
answers may depend on it.  So the oracles of this file act on a world `W`, and `Oracle.Accepted`
says what an instance has been through when the world has come to be as it is.  The contracts
speak of nothing else.

## What is here

* `Oracle.Accepted` — the clauses that an instance has accepted, in order.
* `Oracle.Takes` — an instance accepts clauses one after another.
* `run_consult_of_accepts` — consulting an oracle that does not mind what it accepts.
* `offer_cases`, and from it `consult_cases` — **consulting an oracle either ends with the first
  clause refused or with the verdict on all clauses.**
* `Oracle.AnswersModels` — models are complete, ordered, and satisfy the clauses.
* `Oracle.RefusesOnlyBlatant` — only clauses that cannot be satisfied on their face are refused.
* `Oracle.DeniesOnlyUnsatisfiable` — clauses are called unsatisfiable only if they are.
-/

set_option autoImplicit false

namespace SnapshotPlan

/-- The fault is about a clause, and not about the search. -/
def OracleFault.IsRefusal : OracleFault → Prop
  | contradiction .. => True
  | variableOutOfBounds .. => True
  | timeout _ => False
  | backend _ => False

namespace Oracle

variable {W : Type}

/-! ## The history of an instance

An oracle may do anything with its world, so an instance cannot be known by its value alone.
What is known is how it came about, and in which world it is now. -/

/-- In the world at hand, the instance has been opened over the variables `1, …, n` and has since
accepted exactly the listed clauses, in this order. -/
inductive Accepted (o : Oracle (StateM W)) (n : Nat) : List Clause → o.Instance → W → Prop
  | opened {expected : Nat} {i : o.Instance} {w w' : W}
      (h : (o.newInstance n expected).run w = (i, w')) : Accepted o n [] i w'
  | added {cs : List Clause} {c : Clause} {i i' : o.Instance} {w w' : W}
      (before : Accepted o n cs i w) (h : (o.addClause i c).run w = (.ok i', w')) :
      Accepted o n (cs ++ [c]) i' w'

/-- One act on the world after another. -/
theorem run_bind {α β : Type} (x : StateM W α) (f : α → StateM W β) (w : W) :
    (x >>= f).run w = (f (x.run w).1).run (x.run w).2 := rfl

variable {o : Oracle (StateM W)} {n : Nat}

/-- Offering the first of several clauses, and then the rest if it is accepted. -/
theorem run_offer_cons (i : o.Instance) (c : Clause) (ds : List Clause) (w : W) :
    (o.offer i (c :: ds)).run w =
      match (o.addClause i c).run w with
      | (.error fault, w₁) => (.error fault, w₁)
      | (.ok i₁, w₁) => (o.offer i₁ ds).run w₁ := by
  rw [offer, run_bind]
  rcases (o.addClause i c).run w with ⟨fault | i₁, w₁⟩ <;> rfl

/-- **Where every clause is accepted and nothing changes with it**, the verdict is that on the
instance as it was opened. -/
theorem run_consult_of_accepts (h : ∀ i c w, (o.addClause i c).run w = (.ok i, w))
    (expected : Nat) (cs : List Clause) (w : W) :
    let opened := (o.newInstance n expected).run w
    (o.consult n expected cs).run w = (o.verdict opened.1).run opened.2 := by
  have hoffer : ∀ i w, (o.offer i cs).run w = (.ok i, w) := by
    induction cs with
    | nil => exact fun i w => rfl
    | cons c cs ih =>
      intro i w
      rw [run_offer_cons, h]
      exact ih i w
  rw [consult, run_bind, run_bind, hoffer]

/-- The instance accepts the clauses one after another.  It may change with each, as may the
world. -/
inductive Takes (o : Oracle (StateM W)) : o.Instance → W → List Clause → o.Instance → W → Prop
  | nil (i : o.Instance) (w : W) : Takes o i w [] i w
  | cons {i i₁ i' : o.Instance} {w w₁ w' : W} {c : Clause} {cs : List Clause}
      (first : (o.addClause i c).run w = (.ok i₁, w₁)) (rest : Takes o i₁ w₁ cs i' w') :
      Takes o i w (c :: cs) i' w'

/-- **Offering clauses** ends with all of them taken, or with the first one that is refused. -/
theorem offer_cases (ds : List Clause) : ∀ (i : o.Instance) (w : W),
    (∃ i' w', o.Takes i w ds i' w' ∧ (o.offer i ds).run w = (.ok i', w')) ∨
    ∃ before c after i₁ w₁ fault w', ds = before ++ c :: after ∧ o.Takes i w before i₁ w₁ ∧
      (o.addClause i₁ c).run w₁ = (.error fault, w') ∧
      (o.offer i ds).run w = (.error fault, w') := by
  induction ds with
  | nil => exact fun i w => .inl ⟨i, w, .nil i w, rfl⟩
  | cons c ds ih =>
    intro i w
    rw [run_offer_cons]
    rcases hadd : (o.addClause i c).run w with ⟨fault | i₁, w₁⟩
    · exact .inr ⟨[], c, ds, i, w, fault, w₁, rfl, .nil i w, hadd, rfl⟩
    · obtain ⟨i', w', htakes, hrun⟩ |
        ⟨before, d, after, i₂, w₂, fault, w', rfl, htakes, hd, hrun⟩ := ih i₁ w₁
      · exact .inl ⟨i', w', .cons hadd htakes, hrun⟩
      · exact .inr ⟨c :: before, d, after, i₂, w₂, fault, w', rfl, .cons hadd htakes, hd, hrun⟩

/-- **What is taken has been accepted.** -/
theorem Takes.accepted {i i' : o.Instance} {w w' : W} {ds : List Clause}
    (h : o.Takes i w ds i' w') : ∀ {cs : List Clause}, o.Accepted n cs i w →
      o.Accepted n (cs ++ ds) i' w' := by
  induction h with
  | nil i w => exact fun {cs} hacc => by rwa [List.append_nil]
  | cons hadd _ ih =>
    intro cs hacc
    rw [← List.singleton_append, ← List.append_assoc]
    exact ih (hacc.added hadd)

/-- **What consulting an oracle comes to**: a clause is refused after those before it have been
accepted, or all are accepted and the answer is the verdict on them. -/
theorem consult_cases {expected : Nat} {cs : List Clause} {w w' : W}
    {answer : Except OracleFault Verdict} (h : (o.consult n expected cs).run w = (answer, w')) :
    (∃ before c after i w₁ fault, cs = before ++ c :: after ∧ o.Accepted n before i w₁ ∧
      (o.addClause i c).run w₁ = (.error fault, w') ∧ answer = .error fault) ∨
    ∃ i w₁, o.Accepted n cs i w₁ ∧ (o.verdict i).run w₁ = (answer, w') := by
  rcases hnew : (o.newInstance n expected).run w with ⟨i, w₁⟩
  have hopen : o.Accepted n [] i w₁ := .opened hnew
  rw [consult, run_bind, hnew, run_bind] at h
  obtain ⟨i', w₂, htakes, hrun⟩ | ⟨before, c, after, i', w₂, fault, w₃, rfl, htakes, hadd, hrun⟩ :=
    offer_cases cs i w₁
  · rw [hrun] at h
    exact .inr ⟨i', w₂, htakes.accepted hopen, h⟩
  · rw [hrun] at h
    cases h
    exact .inl ⟨before, c, after, i', w₂, fault, rfl, htakes.accepted hopen, hadd, rfl⟩

/-! ## Contracts

Each contract is a promise about one kind of answer.  An oracle may keep some and break others,
and what follows later names those that it uses. -/

/-- **Models are complete and right.**  A model has one literal for each of the variables
`1, …, n`, in order, and satisfies all that the instance has accepted. -/
def AnswersModels (o : Oracle (StateM W)) : Prop :=
  ∀ {n : Nat} {cs : List Clause} {i : o.Instance} {w w' : W} {m : Model}, n ≤ Var.maxId →
    o.Accepted n cs i w → (o.verdict i).run w = (.ok (.satisfiable m), w') →
      m.lits.length = n ∧ m.ordered = true ∧ m.meets cs = true

/-- A clause that an instance with the accepted clauses `cs` need not take: the empty clause, a
clause of one literal after the opposite one, and a clause with a variable beyond the last. -/
def Blatant (n : Nat) (cs : List Clause) (c : Clause) : Prop :=
  c.lits = [] ∨ (∃ l : Lit, c.lits = [l] ∧ ⟨[l.negate]⟩ ∈ cs) ∨ ∃ l ∈ c.lits, n < l.var.id

/-- A clause of several literals over the variables at hand is not blatant, whatever came before. -/
theorem not_blatant {n : Nat} {cs : List Clause} {c : Clause} (hlen : 2 ≤ c.lits.length)
    (inside : ∀ l ∈ c.lits, l.var.id ≤ n) : ¬ Blatant n cs c := by
  rintro (hnil | ⟨l, hl, -⟩ | ⟨l, hl, hout⟩)
  · rw [hnil] at hlen
    exact absurd hlen (by decide)
  · rw [hl] at hlen
    exact absurd (show 2 ≤ 1 from hlen) (by decide)
  · exact Nat.not_le.2 hout (inside l hl)

/-- **Only blatant clauses are refused**, be it when they are offered or not before the verdict is
asked for. -/
structure RefusesOnlyBlatant (o : Oracle (StateM W)) : Prop where
  /-- What is refused when it is offered is blatant. -/
  offered : ∀ {n : Nat} {cs : List Clause} {i : o.Instance} {w w' : W} {c : Clause}
    {fault : OracleFault}, o.Accepted n cs i w →
      (o.addClause i c).run w = (.error fault, w') → fault.IsRefusal → Blatant n cs c
  /-- If the verdict is a refusal, then some clause that was accepted is blatant. -/
  late : ∀ {n : Nat} {cs : List Clause} {i : o.Instance} {w w' : W} {fault : OracleFault},
    o.Accepted n cs i w → (o.verdict i).run w = (.error fault, w') → fault.IsRefusal →
      ∃ c ∈ cs, Blatant n cs c

/-- **Clauses are called unsatisfiable only if they are.** -/
def DeniesOnlyUnsatisfiable (o : Oracle (StateM W)) : Prop :=
  ∀ {n : Nat} {cs : List Clause} {i : o.Instance} {w w' : W}, o.Accepted n cs i w →
    (o.verdict i).run w = (.ok .unsatisfiable, w') → ∀ σ, ¬ Satisfies σ cs

/-! ## What the contracts give -/

variable {expected : Nat} {cs : List Clause} {w w' : W}

/-- **No clause is refused if none is blatant**, whatever clauses came before it. -/
theorem not_isRefusal_of_consult (ho : o.RefusesOnlyBlatant)
    (hcs : ∀ c ∈ cs, ∀ before, ¬ Blatant n before c) {fault : OracleFault}
    (h : (o.consult n expected cs).run w = (.error fault, w')) : ¬ fault.IsRefusal := by
  intro hrefusal
  obtain ⟨before, c, after, i, w₁, fault', rfl, hacc, hadd, hfault⟩ | ⟨i, w₁, hacc, hverdict⟩ :=
    consult_cases h
  · cases hfault
    have hmem : c ∈ before ++ c :: after := List.mem_append_right _ List.mem_cons_self
    exact hcs c hmem before (ho.offered hacc hadd hrefusal)
  · obtain ⟨c, hc, hblatant⟩ := ho.late hacc hverdict hrefusal
    exact hcs c hc cs hblatant

/-- **Clauses that have a model are not called unsatisfiable.** -/
theorem consult_ne_unsatisfiable (ho : o.DeniesOnlyUnsatisfiable) {σ : Assignment}
    (hσ : Satisfies σ cs) : (o.consult n expected cs).run w ≠ (.ok .unsatisfiable, w') := by
  intro h
  obtain ⟨_, _, _, _, _, _, -, -, -, hfault⟩ | ⟨i, w₁, hacc, hverdict⟩ := consult_cases h
  · cases hfault
  · exact ho hacc hverdict σ hσ

end Oracle
end SnapshotPlan
