import Std.Data.HashSet
import SnapshotPlan.Logic.Clause

/-!
# Models

A model is the list of literals that an oracle answers with.  A well-behaved one has exactly one
literal for each variable `1, 2, …`, in this order, but nothing forces it to: `Model.value?` looks
at the literal in the variable's own place first and searches the list otherwise.
-/

set_option autoImplicit false

namespace SnapshotPlan

/-- The literals that an oracle reports as true. -/
structure Model where
  lits : List Lit
  deriving DecidableEq

namespace Model

/-- The model that gives the variables `1, 2, …` the listed values.  Values beyond the last
variable are dropped. -/
def ofValues (values : List Bool) : Model :=
  ⟨values.zipIdx.filterMap fun p => (Var.ofIndex? p.2).map fun v => ⟨v, p.1⟩⟩

/-- The literal that decides the variable: the one in the variable's place if it is about the
variable, else the first one that is. -/
def literalOf? (m : Model) (v : Var) : Option Lit :=
  ((m.lits[v.index]?).filter fun l => l.var = v).or (m.lits.find? fun l => l.var = v)

/-- The value of the variable, if the model mentions it. -/
def value? (m : Model) (v : Var) : Option Bool := (m.literalOf? v).map Lit.positive

/-- The literals are those of the variables `1, 2, …`, in order. -/
def ordered (m : Model) : Bool := m.lits.zipIdx.all fun p => p.1.var.id == p.2 + 1

/-- Every clause has a literal that the model lists. -/
def meets (m : Model) (cs : List Clause) : Bool :=
  let known := Std.HashSet.ofList m.lits
  cs.all fun c => c.lits.any known.contains

/-! ## What the checks say -/

theorem ordered_iff {m : Model} :
    m.ordered = true ↔ ∀ (i : Nat) (l : Lit), m.lits[i]? = some l → l.var.index = i := by
  have hid : ∀ (l : Lit) (i : Nat), l.var.id = i + 1 ↔ l.var.index = i := fun l i => by
    rw [l.var.id_eq_index_succ, Nat.succ_inj]
  simp only [ordered, List.all_eq_true, beq_iff_eq, hid]
  constructor
  · intro h i l hl
    exact h (l, i) (List.mk_mem_zipIdx_iff_getElem?.2 hl)
  · rintro h ⟨l, i⟩ hl
    exact h i l (List.mk_mem_zipIdx_iff_getElem?.1 hl)

theorem meets_iff {m : Model} {cs : List Clause} :
    m.meets cs = true ↔ ∀ c ∈ cs, ∃ l ∈ c.lits, l ∈ m.lits := by
  simp [meets]

/-- In an ordered model a literal stands in its variable's place. -/
theorem getElem?_index_of_mem {m : Model} (h : m.ordered = true) {l : Lit} (hl : l ∈ m.lits) :
    m.lits[l.var.index]? = some l := by
  obtain ⟨i, hi⟩ := List.mem_iff_getElem?.1 hl
  rw [ordered_iff.1 h i l hi]
  exact hi

/-- The assignment that makes true what the model asserts, and nothing else. -/
def assignment (m : Model) : Assignment := fun v => decide (v.pos ∈ m.lits)

/-- An ordered model does not contradict itself. -/
theorem holds_assignment {m : Model} (h : m.ordered = true) {l : Lit} (hl : l ∈ m.lits) :
    l.Holds m.assignment := by
  rcases l with ⟨v, _ | _⟩
  · refine decide_eq_false fun hpos => ?_
    have hneg := getElem?_index_of_mem h hl
    rw [show (Lit.mk v false).var.index = v.pos.var.index from rfl,
      getElem?_index_of_mem h hpos] at hneg
    cases hneg
  · exact decide_eq_true hl

theorem satisfies_assignment {m : Model} (h : m.ordered = true) {cs : List Clause}
    (hcs : m.meets cs = true) : Satisfies m.assignment cs := by
  intro c hc
  obtain ⟨l, hl, hm⟩ := meets_iff.1 hcs c hc
  exact ⟨l, hl, holds_assignment h hm⟩

end Model

end SnapshotPlan
