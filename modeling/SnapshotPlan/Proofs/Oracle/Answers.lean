import Mathlib
import SnapshotPlan.Proofs.Oracle.Verdict

/-!
# How a buffer answers

A buffer looks at a clause only on its face when it is offered one.  Up to the first contradiction
that it reports, its answers are those that the accepted clauses call for.  Reporting a
contradiction leaves a mark, though: the sign of the clause is remembered in place of the accepted
one, and that may show in a later answer.

## What is here

* `Buffer.answers` — the answers to clauses that are offered in spite of refusals.
* `Buffer.answer_of_accepted` — **up to the first contradiction, the answers are those that the
  accepted clauses call for.**
* `Buffer.AgreesBut` — buffers that differ in what they remember about one variable, and
  `AgreesBut.answers_eq`, `AgreesBut.answers_ne`: when their answers tell them apart.
* `Buffer.answers_after_refusal` — **what a refusal changes**, and `Buffer.refusal_visible`, a
  refusal that shows.
-/

set_option autoImplicit false

namespace SnapshotPlan

/-! ## Clauses on their face -/

namespace Clause

/-- The literal is the first of the clause with a variable beyond `n`. -/
def FirstBeyond (n : Nat) (c : Clause) (l : Lit) : Prop :=
  ∃ before after, c.lits = before ++ l :: after ∧ n < l.var.id ∧ ∀ k ∈ before, k.var.id ≤ n

/-- No literal of the clause has a variable beyond `n`. -/
def Within (n : Nat) (c : Clause) : Prop := ∀ l ∈ c.lits, l.var.id ≤ n

/-- The clause is empty, or it is one literal and the opposite one is a clause of the list. -/
def Opposed (cs : List Clause) (c : Clause) : Prop :=
  c.lits = [] ∨ ∃ l : Lit, c.lits = [l] ∧ ⟨[l.negate]⟩ ∈ cs

/-- The clause is one literal about the variable. -/
def IsUnitAbout (v : Var) (c : Clause) : Prop := ∃ l : Lit, c.lits = [l] ∧ l.var = v

/-- **A clause that is opposed to others has no model in common with them.** -/
theorem Opposed.not_satisfies {cs : List Clause} {c : Clause} (h : c.Opposed cs)
    (σ : Assignment) : ¬ Satisfies σ (cs ++ [c]) := by
  intro hσ
  obtain ⟨l, hl, hholds⟩ := hσ c (List.mem_append_right _ List.mem_cons_self)
  obtain hnil | ⟨k, hk, hmem⟩ := h
  · rw [hnil] at hl
    cases hl
  · obtain ⟨l', hl', hopposite⟩ := hσ _ (List.mem_append_left _ hmem)
    obtain rfl := List.mem_singleton.1 hl'
    rw [hk] at hl
    obtain rfl := List.mem_singleton.1 hl
    exact (Lit.holds_negate_iff σ l).1 hopposite hholds

end Clause

namespace Buffer

variable {n : Nat} {limit : Option Duration} {cs : List Clause} {b b' : Buffer} {c : Clause}

/-! ## Answers up to the first contradiction

As long as no contradiction has been reported, the signs that a buffer remembers are those of the
accepted clauses.  That invariant, `Collects`, turns what a buffer answers into what is so. -/

/-- The answers to clauses offered in order, in spite of refusals. -/
def answers (b : Buffer) : List Clause → List (Except OracleFault Unit)
  | [] => []
  | c :: cs => (b.add c).1 :: (b.add c).2.answers cs

theorem offerAll_cons_snd (b : Buffer) (c : Clause) (cs : List Clause) :
    (b.offerAll (c :: cs)).2 = ((b.add c).2.offerAll cs).2 := by
  rcases hadd : b.add c with ⟨fault | _, b'⟩ <;> simp only [offerAll, hadd]

/-- As many clauses are accepted as there are answers that say so. -/
theorem countP_answers (offered : List Clause) : ∀ b : Buffer,
    (b.answers offered).countP Except.isOk = (b.offerAll offered).1.length := by
  induction offered with
  | nil => exact fun b => rfl
  | cons c offered ih =>
    intro b
    rcases hadd : b.add c with ⟨fault | _, b'⟩
    · simp only [answers, offerAll, hadd]
      rw [List.countP_cons_of_neg (by exact Bool.false_ne_true), ih]
    · simp only [answers, offerAll, hadd]
      rw [List.countP_cons_of_pos rfl, ih, List.length_cons]

/-- **A buffer collects the clauses that it accepts** as long as it reports no contradiction. -/
theorem Collects.offerAll {offered : List Clause} : ∀ {cs : List Clause} {b : Buffer},
    b.Collects n limit cs → (∀ k d, .error (.contradiction k d) ∉ b.answers offered) →
      (b.offerAll offered).2.Collects n limit (cs ++ (b.offerAll offered).1) := by
  induction offered with
  | nil =>
    intro cs b h _
    rw [Buffer.offerAll, List.append_nil]
    exact h
  | cons c offered ih =>
    intro cs b h hno
    obtain ⟨l, -, hadd⟩ | ⟨-, -, hadd⟩ | ⟨-, -, hadd⟩ := b.add_cases c
    · simp only [answers, hadd, List.mem_cons, not_or] at hno
      simp only [Buffer.offerAll, hadd]
      exact ih h fun k d => (hno k d).2
    · refine absurd ?_ (hno b.accepted.size c)
      simp only [answers, hadd]
      exact List.mem_cons_self
    · simp only [answers, hadd, List.mem_cons, not_or] at hno
      simp only [Buffer.offerAll, hadd]
      rw [← List.singleton_append, ← List.append_assoc]
      exact ih (h.add hadd) fun k d => (hno k d).2

/-- The first variable that is beyond the last is reported, whatever else is wrong. -/
theorem answer_eq_outOfBounds_iff {l : Lit} {m : Nat} :
    (b.add c).1 = .error (.variableOutOfBounds l m) ↔
      m = b.maxVariables ∧ c.FirstBeyond b.maxVariables l := by
  have hfirst : c.FirstBeyond b.maxVariables l ↔ b.firstOutside? c = some l :=
    firstOutside?_eq_some_iff.symm
  rw [hfirst]
  obtain ⟨k, hout, hadd⟩ | ⟨hin, -, hadd⟩ | ⟨hin, -, hadd⟩ := b.add_cases c
  · rw [hadd, hout]
    constructor
    · rintro ⟨⟩
      exact ⟨rfl, rfl⟩
    · rintro ⟨rfl, ⟨⟩⟩
      rfl
  · simp [hadd, hin]
  · simp [hadd, hin]

/-- A contradiction is reported for a clause that is opposed to the accepted ones. -/
theorem Collects.answer_eq_contradiction_iff (h : b.Collects n limit cs) {k : Nat} {d : Clause} :
    (b.add c).1 = .error (.contradiction k d) ↔
      k = cs.length ∧ d = c ∧ c.Within n ∧ c.Opposed cs := by
  have hwithin : b.firstOutside? c = none ↔ c.Within n := by
    rw [firstOutside?_eq_none_iff, h.maxVariables_eq]
    exact Iff.rfl
  have hopposed : b.contradicts c = true ↔ c.Opposed cs := h.contradicts_iff
  have hsize : b.accepted.size = cs.length := by
    rw [← h.clauses_eq, clauses, Array.length_toList]
  rw [← hwithin, ← hopposed, ← hsize]
  obtain ⟨l, hout, hadd⟩ | ⟨hin, hcontra, hadd⟩ | ⟨hin, hcontra, hadd⟩ := b.add_cases c
  · simp [hadd, hout]
  · simp [hadd, hin, hcontra, eq_comm]
  · simp [hadd, hcontra]

/-- Every other clause is accepted. -/
theorem Collects.answer_eq_ok_iff (h : b.Collects n limit cs) :
    (b.add c).1 = .ok () ↔ c.Within n ∧ ¬ c.Opposed cs := by
  have hopposed : b.contradicts c = true ↔ c.Opposed cs := h.contradicts_iff
  rw [← hopposed, Bool.not_eq_true, Clause.Within, ← h.maxVariables_eq,
    ← firstOutside?_eq_none_iff]
  obtain ⟨l, hout, hadd⟩ | ⟨hin, hcontra, hadd⟩ | ⟨hin, hcontra, hadd⟩ := b.add_cases c
  · simp [hadd, hout]
  · simp [hadd, hcontra]
  · simp [hadd, hin, hcontra]

/-- **Up to the first contradiction, the answers are those that the accepted clauses call for.**
As many clauses are kept as have been accepted.  If no contradiction has been reported so far, then
the next clause is refused for its first variable beyond the last if there is one, else for a
contradiction if it is empty or opposed to a clause of one literal that was accepted, and then it
has no model in common with the accepted clauses; else it is accepted. -/
theorem answer_of_accepted (n : Nat) (limit : Option Duration) (offered : List Clause) :
    let accepted := ((blank n limit).offerAll offered).1
    let b := ((blank n limit).offerAll offered).2
    b.accepted.size = ((blank n limit).answers offered).countP Except.isOk ∧
      b.accepted.size = accepted.length ∧
      ((∀ k d, .error (.contradiction k d) ∉ (blank n limit).answers offered) → ∀ c : Clause,
        (∀ l m, (b.add c).1 = .error (.variableOutOfBounds l m) ↔ m = n ∧ c.FirstBeyond n l) ∧
        (∀ k d, (b.add c).1 = .error (.contradiction k d) ↔
          k = accepted.length ∧ d = c ∧ c.Within n ∧ c.Opposed accepted) ∧
        ((b.add c).1 = .ok () ↔ c.Within n ∧ ¬ c.Opposed accepted) ∧
        ∀ k d, (b.add c).1 = .error (.contradiction k d) →
          ¬ ∃ σ, Satisfies σ (accepted ++ [c])) := by
  intro accepted b
  have hkeeps : b.Keeps n limit accepted := keeps_offerAll collects_blank.toKeeps
  have hsize : b.accepted.size = accepted.length := by
    rw [← hkeeps.clauses_eq, clauses, Array.length_toList]
  refine ⟨by rw [hsize, countP_answers], hsize, fun hno c => ?_⟩
  have hcollects : b.Collects n limit accepted := collects_blank.offerAll hno
  refine ⟨fun l m => ?_, fun k d => hcollects.answer_eq_contradiction_iff,
    hcollects.answer_eq_ok_iff, fun k d hcontra => not_exists.2 ?_⟩
  · rw [answer_eq_outOfBounds_iff, hcollects.maxVariables_eq]
  · exact (hcollects.answer_eq_contradiction_iff.1 hcontra).2.2.2.not_satisfies

/-- A variable, the same one denied, and another one beyond the last. -/
theorem answer_of_accepted_repeated :
    let x : Var := ⟨1, by decide, by decide⟩
    let y : Var := ⟨5, by decide, by decide⟩
    let offered : List Clause := [⟨[x.pos]⟩, ⟨[x.pos, x.neg]⟩, ⟨[y.neg]⟩, ⟨[x.pos]⟩]
    let b := ((blank 3 none).offerAll offered).2
    (∀ k d, .error (.contradiction k d) ∉ (blank 3 none).answers offered) ∧
      (b.add ⟨[x.neg]⟩).1 = .error (.contradiction 3 ⟨[x.neg]⟩) ∧
      (b.add ⟨[x.neg, y.pos]⟩).1 = .error (.variableOutOfBounds y.pos 3) := by
  intro x y offered b
  have hanswers : (blank 3 none).answers offered =
      [.ok (), .ok (), .error (.variableOutOfBounds y.neg 3), .ok ()] := by cbv
  have haccepted : ((blank 3 none).offerAll offered).1 =
      [⟨[x.pos]⟩, ⟨[x.pos, x.neg]⟩, ⟨[x.pos]⟩] := by cbv
  have hno : ∀ k d, .error (.contradiction k d) ∉ (blank 3 none).answers offered := by
    simp [hanswers]
  obtain ⟨-, -, hnext⟩ := answer_of_accepted 3 none offered
  refine ⟨hno, ((hnext hno _).2.1 _ _).2 ?_, ((hnext hno _).1 _ _).2 ?_⟩
  · rw [haccepted]
    exact ⟨rfl, rfl, by simp [Clause.Within, Var.neg, x], .inr ⟨x.neg, rfl, List.mem_cons_self⟩⟩
  · exact ⟨rfl, [x.neg], [], rfl, by decide, by simp [Var.neg, x]⟩

/-! ## What a refusal changes

Reporting a contradiction puts one wrong sign into the buffer.  The sign shows only if a clause
of one literal about the variable comes before anything puts it right, so two buffers that differ
in one sign are followed until they do not. -/

/-- The second buffer differs from the first in nothing but what it remembers about the variable. -/
structure AgreesBut (v : Var) (b b' : Buffer) : Prop where
  maxVariables_eq : b'.maxVariables = b.maxVariables
  limit_eq : b'.limit = b.limit
  accepted_eq : b'.accepted = b.accepted
  units_eq : ∀ w, w ≠ v → b'.units[w]? = b.units[w]?

theorem verdictOf_with_units (b : Buffer) (units : Std.HashMap Var Bool)
    (d : Decision b.clauses) : verdictOf { b with units := units } d = b.verdictOf d := by
  cases d <;> rfl

theorem answerTo_with_units (b : Buffer) (units : Std.HashMap Var Bool) (time : Duration)
    (a : Awaited b.clauses) : answerTo { b with units := units } time a = b.answerTo time a := by
  cases a with
  | decided d => exact congrArg Except.ok (verdictOf_with_units b units d)
  | late | lost | unstarted reason => rfl

/-- What is remembered has no part in the verdict. -/
theorem verdict_with_units {m : Type → Type} [Monad m] (search : TimedSearch m) (b : Buffer)
    (units : Std.HashMap Var Bool) :
    { b with units := units : Buffer }.verdict search = b.verdict search := by
  rcases b with ⟨n, _ | time, accepted, units'⟩
  · exact congrArg (fun v => pure (Except.ok v)) (verdictOf_with_units ⟨n, none, accepted, units'⟩
      units _)
  · exact congrArg (· <$> search time accepted.toList)
      (funext (answerTo_with_units ⟨n, some time, accepted, units'⟩ units time))

/-- Only a clause of one literal about a variable changes what is remembered about it. -/
theorem getElem?_units_add {v : Var} (hc : ¬ c.IsUnitAbout v) :
    (b.add c).2.units[v]? = b.units[v]? := by
  have hremember : (b.remember c).units[v]? = b.units[v]? := by
    rw [remember]
    split
    · next l hl =>
      have hne : l.var ≠ v := fun hv => hc ⟨l, hl, hv⟩
      rw [Std.HashMap.getElem?_insert, beq_false_of_ne hne]
      rfl
    · rfl
  obtain ⟨l, -, hadd⟩ | ⟨-, -, hadd⟩ | ⟨-, -, hadd⟩ := b.add_cases c <;> rw [hadd]
  · exact hremember
  · exact hremember

theorem maxVariables_add (b : Buffer) (c : Clause) :
    (b.add c).2.maxVariables = b.maxVariables := by
  obtain ⟨l, -, hadd⟩ | ⟨-, -, hadd⟩ | ⟨-, -, hadd⟩ := b.add_cases c <;> rw [hadd]
  rw [remember_eq]

/-- A clause of one literal is accepted just if the sign that is remembered is its own. -/
theorem answer_unit {l : Lit} {s : Bool} (hc : c.lits = [l])
    (hin : l.var.id ≤ b.maxVariables) (hs : b.units[l.var]? = some s) :
    (b.add c).1 = if s = l.positive then .ok ()
      else .error (.contradiction b.accepted.size c) := by
  have hnone : b.firstOutside? c = none := by
    rw [firstOutside?_eq_none_iff, hc]
    exact List.forall_mem_singleton.2 hin
  have hcontra : b.contradicts c = true ↔ ¬ s = l.positive := by
    rw [contradicts_iff, hc]
    simp only [List.cons_ne_nil, false_or, List.cons.injEq, and_true, exists_eq_left', hs,
      Option.some.injEq]
    exact Bool.eq_not
  obtain ⟨k, hout, -⟩ | ⟨-, htrue, hadd⟩ | ⟨-, hfalse, hadd⟩ := b.add_cases c
  · rw [hnone] at hout
    cases hout
  · rw [hadd, if_neg (hcontra.1 htrue)]
  · rw [hadd, if_pos]
    rw [← Bool.not_eq_true, hcontra, not_not] at hfalse
    exact hfalse

namespace AgreesBut

variable {v : Var}

theorem verdict_eq (h : b.AgreesBut v b') {m : Type → Type} [Monad m] (search : TimedSearch m) :
    b'.verdict search = b.verdict search := by
  have hb' : b' = { b with units := b'.units } := by
    rw [← h.maxVariables_eq, ← h.limit_eq, ← h.accepted_eq]
  rw [hb', verdict_with_units]

theorem remember (h : b.AgreesBut v b') : (b.remember c).AgreesBut v (b'.remember c) := by
  rw [Buffer.remember, Buffer.remember]
  split
  · refine ⟨h.maxVariables_eq, h.limit_eq, h.accepted_eq, fun w hw => ?_⟩
    simp only [Std.HashMap.getElem?_insert, h.units_eq w hw]
  · exact h

/-- **A clause that is not one literal about the variable does not tell the buffers apart.** -/
theorem add (h : b.AgreesBut v b') (hc : ¬ c.IsUnitAbout v) :
    (b'.add c).1 = (b.add c).1 ∧ (b.add c).2.AgreesBut v (b'.add c).2 := by
  have hout : b'.firstOutside? c = b.firstOutside? c := by
    rw [firstOutside?, firstOutside?, h.maxVariables_eq]
  have hcontra : b'.contradicts c = b.contradicts c := by
    rw [Bool.eq_iff_iff, contradicts_iff, contradicts_iff]
    have hunits : ∀ l : Lit, c.lits = [l] → b'.units[l.var]? = b.units[l.var]? := fun l hl =>
      h.units_eq l.var fun hv => hc ⟨l, hl, hv⟩
    refine or_congr_right (exists_congr fun l => and_congr_right fun hl => ?_)
    rw [hunits l hl]
  rw [Buffer.add, Buffer.add, hout, hcontra, h.accepted_eq, h.maxVariables_eq]
  rcases b.firstOutside? c with _ | l
  · have hremember := h.remember (c := c)
    rcases b.contradicts c
    · refine ⟨rfl, hremember.maxVariables_eq, hremember.limit_eq, ?_, hremember.units_eq⟩
      exact congrArg (Array.push · c) hremember.accepted_eq
    · exact ⟨rfl, hremember⟩
  · exact ⟨rfl, h⟩

/-- **Nor do any number of them.** -/
theorem answers_eq {later : List Clause} : ∀ {b b' : Buffer}, b.AgreesBut v b' →
    (∀ c ∈ later, ¬ c.IsUnitAbout v) → b'.answers later = b.answers later ∧
      (b.offerAll later).2.AgreesBut v (b'.offerAll later).2 := by
  induction later with
  | nil => exact fun h _ => ⟨rfl, h⟩
  | cons c later ih =>
    intro b b' h hlater
    obtain ⟨hc, hlater⟩ := List.forall_mem_cons.1 hlater
    obtain ⟨hanswer, hnext⟩ := h.add hc
    obtain ⟨hanswers, hend⟩ := ih hnext hlater
    rw [answers, answers, hanswer, hanswers, offerAll_cons_snd, offerAll_cons_snd]
    exact ⟨rfl, hend⟩

/-- **The first clause of one literal about the variable tells them apart** if the signs that they
remember are opposite. -/
theorem answers_ne {s : Bool} {later : List Clause} : ∀ {b b' : Buffer}, b.AgreesBut v b' →
    v.id ≤ b.maxVariables → b.units[v]? = some s → b'.units[v]? = some (!s) →
      (∃ c ∈ later, c.IsUnitAbout v) → b'.answers later ≠ b.answers later := by
  induction later with
  | nil => exact fun _ _ _ _ ⟨c, hc, _⟩ => nomatch hc
  | cons c later ih =>
    intro b b' h hin hs hs' hlater heq
    obtain ⟨hhead, htail⟩ := List.cons.inj heq
    by_cases hc : c.IsUnitAbout v
    · obtain ⟨l, hl, rfl⟩ := hc
      have hin' : l.var.id ≤ b'.maxVariables := by rwa [h.maxVariables_eq]
      rw [answer_unit hl hin hs, answer_unit hl hin' hs'] at hhead
      by_cases hsign : s = l.positive
      · rw [if_neg (by simp [hsign]), if_pos hsign] at hhead
        cases hhead
      · rw [if_pos (Bool.eq_not.2 (Ne.symm hsign)).symm, if_neg hsign] at hhead
        cases hhead
    · refine ih (h.add hc).2 ?_ ?_ ?_ ?_ htail
      · rwa [maxVariables_add]
      · rwa [getElem?_units_add hc]
      · rwa [getElem?_units_add hc]
      · obtain ⟨d, hd, hunit⟩ := hlater
        obtain rfl | hd := List.mem_cons.1 hd
        · exact absurd hunit hc
        · exact ⟨d, hd, hunit⟩

theorem answers_eq_iff {s : Bool} (h : b.AgreesBut v b') (hin : v.id ≤ b.maxVariables)
    (hs : b.units[v]? = some s) (hs' : b'.units[v]? = some (!s)) {later : List Clause} :
    b'.answers later = b.answers later ↔ ∀ c ∈ later, ¬ c.IsUnitAbout v :=
  ⟨fun heq c hc hunit => h.answers_ne hin hs hs' ⟨c, hc, hunit⟩ heq,
    fun hlater => (h.answers_eq hlater).1⟩

end AgreesBut

/-- A clause of one literal leaves its sign behind, and nothing else, when it is remembered. -/
theorem remember_of_unit {l : Lit} (hc : c.lits = [l]) : b.AgreesBut l.var (b.remember c) ∧
    (b.remember c).units[l.var]? = some l.positive := by
  have hremember : b.remember c = { b with units := b.units.insert l.var l.positive } := by
    simp only [remember, hc]
  rw [hremember]
  refine ⟨⟨rfl, rfl, rfl, fun w hw => ?_⟩, Std.HashMap.getElem?_insert_self⟩
  simp only [Std.HashMap.getElem?_insert, beq_false_of_ne (Ne.symm hw), Bool.false_eq_true,
    if_false]

/-- **What a refusal leaves behind**: nothing, or the sign of a clause of one literal in place of
the opposite one. -/
theorem refusal_cases {fault : OracleFault} (h : b.add c = (.error fault, b')) :
    (b' = b ∧ ∀ v, c.IsUnitAbout v → ¬ v.id ≤ b.maxVariables) ∨
      ∃ l : Lit, c.lits = [l] ∧ l.var.id ≤ b.maxVariables ∧ b.AgreesBut l.var b' ∧
        b.units[l.var]? = some (!l.positive) ∧ b'.units[l.var]? = some l.positive := by
  obtain ⟨l, hout, hadd⟩ | ⟨hnone, hcontra, hadd⟩ | ⟨-, -, hadd⟩ := b.add_cases c
  · rw [hadd] at h
    cases h
    refine .inl ⟨rfl, ?_⟩
    rintro v ⟨k, hk, rfl⟩ hin
    have hnone : b.firstOutside? c = none := by
      rw [firstOutside?_eq_none_iff, hk]
      exact List.forall_mem_singleton.2 hin
    rw [hnone] at hout
    cases hout
  · rw [hadd] at h
    cases h
    obtain hnil | ⟨l, hl, hs⟩ := contradicts_iff.1 hcontra
    · refine .inl ⟨remember_of_length_ne_one (by simp [hnil]), ?_⟩
      rintro v ⟨k, hk, -⟩
      rw [hnil] at hk
      cases hk
    · have hin : l.var.id ≤ b.maxVariables :=
        firstOutside?_eq_none_iff.1 hnone l (by simp [hl])
      obtain ⟨hagrees, hs'⟩ := remember_of_unit (b := b) hl
      exact .inr ⟨l, hl, hin, hagrees, hs, hs'⟩
  · rw [hadd] at h
    cases h

/-- **What a refusal changes.**  The accepted clauses stay what they were, and so does the verdict,
whatever a timed search does.  Later answers stay the same, and so do the accepted clauses and the
verdict after them, unless a clause of one literal has been refused for a contradiction and one
about the same variable is offered later: then they do not. -/
theorem answers_after_refusal {fault : OracleFault} (h : b.add c = (.error fault, b')) :
    b'.accepted = b.accepted ∧
      (∀ {m : Type → Type} [Monad m] (search : TimedSearch m),
        b'.verdict search = b.verdict search) ∧ ∀ later,
      (b'.answers later = b.answers later ↔ ¬ ∃ v : Var, c.IsUnitAbout v ∧
        v.id ≤ b.maxVariables ∧ ∃ d ∈ later, d.IsUnitAbout v) ∧
      (b'.answers later = b.answers later →
        (b'.offerAll later).2.accepted = (b.offerAll later).2.accepted ∧
          ∀ {m : Type → Type} [Monad m] (search : TimedSearch m),
            (b'.offerAll later).2.verdict search = (b.offerAll later).2.verdict search) := by
  obtain ⟨rfl, hno⟩ | ⟨l, hl, hin, hagrees, hs, hs'⟩ := refusal_cases h
  · refine ⟨rfl, fun _ => rfl, fun later => ⟨iff_of_true rfl ?_, fun _ => ⟨rfl, fun _ => rfl⟩⟩⟩
    rintro ⟨v, hunit, hin, -⟩
    exact hno v hunit hin
  · rw [← Bool.not_not l.positive] at hs'
    refine ⟨hagrees.accepted_eq, hagrees.verdict_eq, fun later => ?_⟩
    have hiff : b'.answers later = b.answers later ↔ ∀ d ∈ later, ¬ d.IsUnitAbout l.var :=
      hagrees.answers_eq_iff hin hs hs'
    refine ⟨hiff.trans ⟨?_, fun hno d hd hunit => ?_⟩, fun heq => ?_⟩
    · rintro hlater ⟨v, ⟨k, hk, rfl⟩, -, d, hd, hunit⟩
      rw [hl] at hk
      cases hk
      exact hlater d hd hunit
    · exact hno ⟨l.var, ⟨l, hl, rfl⟩, hin, d, hd, hunit⟩
    · obtain ⟨-, hend⟩ := hagrees.answers_eq (hiff.1 heq)
      exact ⟨hend.accepted_eq, hend.verdict_eq⟩

/-- After a literal has been accepted, refusing its opposite does not show in the answer to a clause
of both, but it does in the answer to the literal itself. -/
theorem answers_after_refusal_opposite :
    let x : Var := ⟨1, by decide, by decide⟩
    let b := ((blank 1 none).add ⟨[x.pos]⟩).2
    let b' := (b.add ⟨[x.neg]⟩).2
    b.add ⟨[x.neg]⟩ = (.error (.contradiction 1 ⟨[x.neg]⟩), b') ∧
      (∀ search : TimedSearch Id, b'.verdict search = b.verdict search) ∧
      b'.answers [⟨[x.pos, x.neg]⟩] = b.answers [⟨[x.pos, x.neg]⟩] ∧
      b'.answers [⟨[x.pos]⟩] ≠ b.answers [⟨[x.pos]⟩] := by
  intro x b b'
  have hfault : (((blank 1 none).add ⟨[x.pos]⟩).2.add ⟨[x.neg]⟩).1 =
      .error (.contradiction 1 ⟨[x.neg]⟩) := by cbv
  have h : b.add ⟨[x.neg]⟩ = (.error (.contradiction 1 ⟨[x.neg]⟩), b') := by rw [← hfault]
  have hin : x.id ≤ b.maxVariables := by
    rw [maxVariables_add]
    decide
  obtain ⟨-, hverdict, hlater⟩ := answers_after_refusal h
  refine ⟨h, hverdict, (hlater _).1.2 ?_, mt (hlater _).1.1 (not_not.2 ?_)⟩
  · rintro ⟨v, -, -, d, hd, k, hk, -⟩
    obtain rfl := List.mem_singleton.1 hd
    simp at hk
  · exact ⟨x, ⟨x.neg, rfl, rfl⟩, hin, _, List.mem_cons_self, x.pos, rfl, rfl⟩

/-- **A refusal can show.**  After a literal has been accepted and its opposite refused, the
opposite is accepted when it is offered again, and the literal is refused. -/
theorem refusal_visible :
    let x : Var := ⟨1, by decide, by decide⟩
    let b := ((blank 1 none).add ⟨[x.pos]⟩).2
    let b' := (b.add ⟨[x.neg]⟩).2
    (b.add ⟨[x.neg]⟩).1 = .error (.contradiction 1 ⟨[x.neg]⟩) ∧
      b.answers [⟨[x.neg]⟩] = [.error (.contradiction 1 ⟨[x.neg]⟩)] ∧
      b'.answers [⟨[x.neg]⟩] = [.ok ()] ∧
      b.answers [⟨[x.pos]⟩] = [.ok ()] ∧
      b'.answers [⟨[x.pos]⟩] = [.error (.contradiction 1 ⟨[x.pos]⟩)] := by
  refine ⟨?_, ?_, ?_, ?_, ?_⟩ <;> cbv

end Buffer
end SnapshotPlan
