import SnapshotPlan.Proofs.Logic.Models

/-!
# Looking up a variable in a model

A variable is looked up in its own place first, and searched for if the literal there is about
another one.  The short way may find another literal than the search does, so the two agree on the
sign only if the model gives no variable both signs.  In a model made from values, what is looked up
is the value in the variable's place.

## What is here

* `Model.literalOf?_of_place`, `Model.literalOf?_of_no_place` — the short way, and the search.
* `Model.value?_eq_none_iff`, `Model.mem_of_value?` — **something is found iff there is something to
  find**, and it is the sign of a literal of the variable.
* `Model.Consistent`, `Model.value?_of_first` — **the short way agrees with the search** in a model
  without contradiction.
* `Model.value?_ofValues` — the values that a model is made from.
* `Model.value?_first_sign` — all of it in one statement.
-/

set_option autoImplicit false

namespace SnapshotPlan
namespace Model

variable {m : Model} {v : Var}

/-! ## The two ways

The place of a variable is looked at first, and the search starts over from the front if that
fails.  A literal is found either way if there is one, but not always the same. -/

/-- If the literal in the variable's place is about the variable, it is the one that is taken. -/
theorem literalOf?_of_place {l : Lit} (hl : m.lits[v.index]? = some l) (hv : l.var = v) :
    m.literalOf? v = some l := by
  simp [literalOf?, hl, hv]

/-- Otherwise the first literal of the variable is taken. -/
theorem literalOf?_of_no_place (h : ∀ l, m.lits[v.index]? = some l → l.var ≠ v) :
    m.literalOf? v = m.lits.find? fun l => l.var = v := by
  have hplace : ((m.lits[v.index]?).filter fun l => decide (l.var = v)) = none :=
    Option.filter_eq_none_iff.2 fun l hl => by simpa using h l hl
  rw [literalOf?, hplace, Option.none_or]

/-- Either way, what is taken is a literal of the variable. -/
theorem mem_of_literalOf? {l : Lit} (h : m.literalOf? v = some l) : l ∈ m.lits ∧ l.var = v := by
  by_cases hplace : ∃ k, m.lits[v.index]? = some k ∧ k.var = v
  · obtain ⟨k, hk, hv⟩ := hplace
    rw [literalOf?_of_place hk hv, Option.some.injEq] at h
    exact h ▸ ⟨List.mem_of_getElem? hk, hv⟩
  · rw [literalOf?_of_no_place fun k hk hv => hplace ⟨k, hk, hv⟩] at h
    exact ⟨List.mem_of_find?_eq_some h, by simpa using List.find?_some h⟩

/-- **Nothing is found iff there is nothing to find.** -/
theorem value?_eq_none_iff : m.value? v = none ↔ ∀ l ∈ m.lits, l.var ≠ v := by
  rw [value?, Option.map_eq_none_iff]
  constructor
  · intro h
    have hplace : ∀ l, m.lits[v.index]? = some l → l.var ≠ v := fun l hl hv => by
      rw [literalOf?_of_place hl hv] at h
      cases h
    rw [literalOf?_of_no_place hplace, List.find?_eq_none] at h
    exact fun l hl => by simpa using h l hl
  · intro h
    refine Option.eq_none_iff_forall_ne_some.2 fun l hl => ?_
    obtain ⟨hmem, hv⟩ := mem_of_literalOf? hl
    exact h l hmem hv

/-- What is found is the sign of a literal of the variable. -/
theorem mem_of_value? {b : Bool} (h : m.value? v = some b) : ⟨v, b⟩ ∈ m.lits := by
  obtain ⟨l, hl, rfl⟩ := Option.map_eq_some_iff.1 h
  obtain ⟨hmem, rfl⟩ := mem_of_literalOf? hl
  exact hmem

/-! ## Models without contradiction -/

/-- No variable is both asserted and denied. -/
def Consistent (m : Model) : Prop := ∀ w : Var, ¬ (w.pos ∈ m.lits ∧ w.neg ∈ m.lits)

/-- In a consistent model, the literals of a variable are all the same. -/
theorem Consistent.eq_of_var_eq (h : m.Consistent) {k l : Lit} (hk : k ∈ m.lits) (hl : l ∈ m.lits)
    (hvar : k.var = l.var) : k = l := by
  obtain ⟨w, a⟩ := k
  obtain ⟨u, b⟩ := l
  obtain rfl : w = u := hvar
  cases a <;> cases b
  · rfl
  · exact absurd ⟨hl, hk⟩ (h w)
  · exact absurd ⟨hk, hl⟩ (h w)
  · rfl

/-- **The short way agrees with the search** in a consistent model: what is found is the sign of the
first literal of the variable. -/
theorem value?_of_first (h : m.Consistent) {l : Lit}
    (hfirst : (m.lits.find? fun l => l.var = v) = some l) : m.value? v = some l.positive := by
  have hmem : l ∈ m.lits := List.mem_of_find?_eq_some hfirst
  have hv : l.var = v := by simpa using List.find?_some hfirst
  by_cases hplace : ∃ k, m.lits[v.index]? = some k ∧ k.var = v
  · obtain ⟨k, hk, hkv⟩ := hplace
    have hkl : k = l := h.eq_of_var_eq (List.mem_of_getElem? hk) hmem (hkv.trans hv.symm)
    rw [value?, literalOf?_of_place hk hkv, hkl, Option.map_some]
  · rw [value?, literalOf?_of_no_place fun k hk hkv => hplace ⟨k, hk, hkv⟩, hfirst,
      Option.map_some]

/-! ## Models made from values -/

/-- **A model made from values gives each variable the value in its place**, and a variable beyond
the values none. -/
theorem value?_ofValues {values : List Bool} : (ofValues values).value? v = values[v.index]? := by
  rcases hb : values[v.index]? with _ | b
  · refine value?_eq_none_iff.2 fun l hl hv => ?_
    obtain ⟨i, hi⟩ := List.mem_iff_getElem?.1 hl
    obtain ⟨rfl, hvalue⟩ := getElem?_ofValues_iff.1 hi
    rw [hv, hb] at hvalue
    cases hvalue
  · have hl := (getElem?_ofValues_iff (l := ⟨v, b⟩)).2 ⟨rfl, hb⟩
    rw [value?, literalOf?_of_place hl rfl, Option.map_some]

/-! ## In one statement -/

/-- **Looking up a variable.**  In any list of literals nothing is found iff none is about the
variable, and what is found is the sign of one that is; it is the sign of the first one, unless some
variable stands in the list with both signs.  A list of values is looked up by place: it makes a
model of one literal for each value, in the order of the variables. -/
theorem value?_first_sign (v : Var) :
    (∀ lits : List Lit,
      ((⟨lits⟩ : Model).value? v = none ↔ ∀ l ∈ lits, l.var ≠ v) ∧
      (∀ b, (⟨lits⟩ : Model).value? v = some b → ∃ l ∈ lits, l.var = v ∧ l.positive = b) ∧
      ((∀ w : Var, ¬ (w.pos ∈ lits ∧ w.neg ∈ lits)) →
        ∀ before l after, lits = before ++ l :: after → l.var = v → (∀ k ∈ before, k.var ≠ v) →
          (⟨lits⟩ : Model).value? v = some l.positive)) ∧
    ∀ values : List Bool, values.length ≤ Var.maxId →
      (ofValues values).value? v = values[v.id - 1]? ∧
      (ofValues values).lits.length = values.length ∧
      ∀ (i : Nat) (l : Lit), (ofValues values).lits[i]? = some l ↔
        l.var.id = i + 1 ∧ values[i]? = some l.positive := by
  refine ⟨fun lits => ⟨value?_eq_none_iff, fun b hb => ⟨⟨v, b⟩, mem_of_value? hb, rfl, rfl⟩, ?_⟩,
    fun values hlen => ⟨value?_ofValues, ?_, fun i l => ?_⟩⟩
  · rintro hconsistent before l after rfl hl hbefore
    refine value?_of_first hconsistent ?_
    rw [List.find?_append, List.find?_eq_none.2 fun k hk => by simpa using hbefore k hk,
      Option.none_or, List.find?_cons_of_pos (by simpa using hl)]
  · rw [length_ofValues, Nat.min_eq_left hlen]
  · rw [getElem?_ofValues_iff, l.var.id_eq_index_succ, Nat.succ_inj]

/-- Four literals of three variables.  None is in its variable's place but the second `3`. -/
def scattered : List Lit := [3, -1, 3, 2].filterMap Lit.ofInt?

theorem not_both_scattered (w : Var) : ¬ (w.pos ∈ scattered ∧ w.neg ∈ scattered) := by
  have hids : ∀ l ∈ scattered,
      if l.positive then l.var.id = 3 ∨ l.var.id = 2 else l.var.id = 1 := by decide
  rintro ⟨hpos, hneg⟩
  have h23 : w.id = 3 ∨ w.id = 2 := hids w.pos hpos
  have h1 : w.id = 1 := hids w.neg hneg
  omega

/-- Variable `2` is searched for, up to the last literal; among three values it is looked up by
place. -/
theorem value?_first_sign_scattered :
    (∀ w : Var, ¬ (w.pos ∈ scattered ∧ w.neg ∈ scattered)) ∧
      (⟨scattered⟩ : Model).value? ⟨2, by decide, by decide⟩ = some true ∧
      [false, true, false].length ≤ Var.maxId ∧
      (ofValues [false, true, false]).value? ⟨2, by decide, by decide⟩ = some true := by
  have hlen : [false, true, false].length ≤ Var.maxId := by decide
  obtain ⟨hlits, hvalues⟩ := value?_first_sign ⟨2, by decide, by decide⟩
  refine ⟨not_both_scattered, ?_, hlen, (hvalues _ hlen).1⟩
  exact (hlits scattered).2.2 not_both_scattered (scattered.take 3)
    (Var.pos ⟨2, by decide, by decide⟩) [] (by decide) rfl (by decide)

/-- With both signs in the list, the literal in the variable's place is taken, and not the first. -/
example :
    (⟨[-2, 2].filterMap Lit.ofInt?⟩ : Model).value? ⟨2, by decide, by decide⟩ = some true := by
  decide

end Model
end SnapshotPlan
