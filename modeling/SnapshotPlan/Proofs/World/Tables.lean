import Mathlib.Data.List.Induction
import Mathlib.Data.Set.Card
import SnapshotPlan.Encoding.Emission
import SnapshotPlan.World.FluentTable

/-!
# Tables of fluents are sets

A table is built, copied and changed, and its row of bits keeps traces of that: it is as long as the
largest fluent that was ever inserted asks for.  Nothing that a table is asked shows them.

## What is here

* `FluentTable.members` — the set that a history of calls gives to a name, read off the calls alone:
  the fluents last inserted rather than last erased.
* `mem_toSet_after` — **a table holds the set of its history.**
* `FluentTable.Represents` — all that a table says of itself, and `represents`.
* `TablePair.SameElements`, `TableAction.SameElements` — the same conditions, effects and actions,
  on whatever rows.
* `tables_tell_elements` — **a table tells its elements and nothing else**, in one statement.
-/

set_option autoImplicit false

namespace SnapshotPlan

/-! ## Sets -/

namespace FluentSet

variable {s : FluentSet}

theorem isEmpty_iff : s.isEmpty = true ↔ ∀ f, f ∉ s := by
  rw [isEmpty, List.isEmpty_iff, List.eq_nil_iff_forall_not_mem]
  exact Iff.rfl

theorem size_eq_ncard (s : FluentSet) : s.size = {f | f ∈ s}.ncard := by
  have hcoe : {f | f ∈ s} = (s.toList.toFinset : Set FluentId) := by
    ext f
    rw [Finset.mem_coe, List.mem_toFinset]
    exact Iff.rfl
  rw [hcoe, Set.ncard_coe_finset, List.toFinset_card_of_nodup s.nodup_toList]
  rfl

/-- The last of the listed elements is the greatest. -/
theorem greatest_of_max? {g : FluentId} (h : s.max? = some g) :
    g ∈ s ∧ ∀ f ∈ s, f.toNat ≤ g.toNat := by
  obtain ⟨before, hids⟩ := List.getLast?_eq_some_iff.1 h
  have hlt := (List.pairwise_append.1 (hids ▸ s.increasing)).2.2
  simp only [mem_def, hids, List.mem_append, List.mem_singleton]
  refine ⟨.inr trivial, ?_⟩
  rintro f (hf | rfl)
  · exact Nat.le_of_lt (hlt f hf g List.mem_cons_self)
  · exact Nat.le_refl _

theorem max?_eq_some_iff {f : FluentId} :
    s.max? = some f ↔ f ∈ s ∧ ∀ g ∈ s, g.toNat ≤ f.toNat := by
  refine ⟨greatest_of_max?, ?_⟩
  rintro ⟨hf, hgreatest⟩
  obtain ⟨g, hg⟩ : ∃ g, s.max? = some g :=
    ⟨_, List.getLast?_eq_some_getLast (List.ne_nil_of_mem hf)⟩
  have hfg := (greatest_of_max? hg).2 f hf
  have hgf := hgreatest g (greatest_of_max? hg).1
  rw [hg, FluentId.toNat_inj.1 (Nat.le_antisymm hgf hfg)]

theorem max?_eq_none_iff : s.max? = none ↔ ∀ f, f ∉ s := by
  rw [max?, List.getLast?_eq_none_iff, List.eq_nil_iff_forall_not_mem]
  exact Iff.rfl

end FluentSet

/-! ## Histories

A copy shares what was done to its source up to then and nothing of what comes later.  The calls
are therefore read from the last to the first, and reading goes on with the source where a copy
was made. -/

namespace FluentTable

/-- What was last done about a fluent in the set that a name stands for: it was inserted, it was
erased, or neither since the set was made.  The calls are listed from the latest to the first. -/
def lastChange? (f : FluentId) : String → List Call → Option Bool
  | _, [] => none
  | name, .blank made :: cs => if name = made then none else lastChange? f name cs
  | name, .ofLength made _ :: cs => if name = made then none else lastChange? f name cs
  | name, .ofList made ids :: cs =>
    if name = made then if f ∈ ids then some true else none else lastChange? f name cs
  | name, .copy made source :: cs => lastChange? f (if name = made then source else name) cs
  | name, .insert changed g :: cs =>
    if name = changed ∧ f = g then some true else lastChange? f name cs
  | name, .erase changed g :: cs =>
    if name = changed ∧ f = g then some false else lastChange? f name cs

/-- The fluents that were last inserted into the set of a name, and not erased since. -/
def members (calls : List Call) (name : String) : Set FluentId :=
  {f | lastChange? f name calls.reverse = some true}

variable {B : Type} [BitRow B]

theorem mem_assign_iff {tables : String → FluentTable B} {made name : String} {t : FluentTable B}
    {f : FluentId} : f ∈ (assign tables made t name).toSet ↔
      if name = made then f ∈ t.toSet else f ∈ (tables name).toSet := by
  rw [assign]
  split <;> rfl

/-- One more call changes a table as it changes the set of its history. -/
theorem mem_toSet_perform {tables : String → FluentTable B} {f : FluentId} {cs : List Call}
    (h : ∀ name, f ∈ (tables name).toSet ↔ lastChange? f name cs = some true) (c : Call)
    (name : String) :
    f ∈ (perform tables c name).toSet ↔ lastChange? f name (c :: cs) = some true := by
  have hblank : ∀ n : Nat, f ∈ (ofLength n : FluentTable B).toSet ↔
      (none : Option Bool) = some true :=
    fun n => iff_of_false (not_mem_toSet_ofLength n f) nofun
  cases c with
  | blank made =>
    rw [perform, mem_assign_iff, lastChange?]
    split
    · exact hblank 0
    · exact h name
  | ofLength made n =>
    rw [perform, mem_assign_iff, lastChange?]
    split
    · exact hblank n
    · exact h name
  | ofList made ids =>
    rw [perform, mem_assign_iff, lastChange?]
    split
    · rw [mem_toSet_ofList]
      by_cases hf : f ∈ ids <;> simp [hf]
    · exact h name
  | copy made source =>
    rw [perform, mem_assign_iff, lastChange?]
    split
    · exact h source
    · exact h name
  | insert changed g =>
    rw [perform, mem_assign_iff, lastChange?]
    by_cases hname : name = changed
    · subst hname
      by_cases hg : f = g <;> simp [mem_toSet_insert, h, hg]
    · rw [if_neg hname, if_neg fun e => hname e.1, h]
  | erase changed g =>
    rw [perform, mem_assign_iff, lastChange?]
    by_cases hname : name = changed
    · subst hname
      by_cases hg : f = g <;> simp [mem_toSet_erase, h, hg]
    · rw [if_neg hname, if_neg fun e => hname e.1, h]

/-- **A table holds the set of its history.** -/
theorem mem_toSet_after {calls : List Call} {f : FluentId} : ∀ {name : String},
    f ∈ (after calls name : FluentTable B).toSet ↔ f ∈ members calls name := by
  -- A copy makes a table the heir of another one, so the induction is over all names at once.
  induction calls using List.reverseRecOn with
  | nil => exact iff_of_false (not_mem_toSet_ofLength 0 f) nofun
  | append_singleton calls c ih =>
    intro name
    rw [after, List.foldl_concat, members, Set.mem_ofPred_eq, List.reverse_concat]
    exact mem_toSet_perform (fun name => ih) c name

/-! ## What a table answers -/

/-- All that a table says of itself, if it holds the given set. -/
structure Represents (t : FluentTable B) (M : Set FluentId) : Prop where
  finite : M.Finite
  contains_iff : ∀ f, t.contains f = true ↔ f ∈ M
  increasing : t.toList.Pairwise (· < ·)
  mem_toList_iff : ∀ f, f ∈ t.toList ↔ f ∈ M
  size_eq : t.size = M.ncard
  isEmpty_iff : t.isEmpty = true ↔ M = ∅
  max?_eq_some_iff : ∀ f, t.max? = some f ↔ f ∈ M ∧ ∀ g ∈ M, g.toNat ≤ f.toNat
  max?_eq_none_iff : t.max? = none ↔ M = ∅

theorem represents {t : FluentTable B} {M : Set FluentId} (h : ∀ f, f ∈ t.toSet ↔ f ∈ M) :
    t.Represents M := by
  have hM : {f | f ∈ t.toSet} = M := Set.ext h
  have hempty : (∀ f, f ∉ t.toSet) ↔ M = ∅ := by
    rw [Set.eq_empty_iff_forall_notMem]
    exact forall_congr' fun f => not_congr (h f)
  constructor
  case finite => exact t.toList.finite_toSet.subset fun f hf => (h f).2 hf
  case contains_iff => exact fun f => contains_iff.trans (h f)
  case increasing => exact t.pairwise_toList
  case mem_toList_iff => exact h
  case size_eq => rw [← size_toSet, FluentSet.size_eq_ncard, hM]
  case isEmpty_iff => rw [← isEmpty_toSet, FluentSet.isEmpty_iff, hempty]
  case max?_eq_some_iff =>
    intro f
    rw [← max?_toSet, FluentSet.max?_eq_some_iff]
    simp only [h]
  case max?_eq_none_iff => rw [← max?_toSet, FluentSet.max?_eq_none_iff, hempty]

/-- Tables of histories are equal iff the histories left the same fluents. -/
theorem after_beq_iff {calls calls' : List Call} {name name' : String} :
    ((after calls name : FluentTable B) == after calls' name') = true ↔
      members calls name = members calls' name' := by
  rw [beq_iff, Set.ext_iff]
  simp only [← mem_toSet_after (B := B)]
  exact ⟨fun h f => h ▸ Iff.rfl, FluentSet.ext⟩

/-- Equal tables are hashed from the same words. -/
theorem words_eq_of_beq {t u : FluentTable B} (h : (t == u) = true) : t.words = u.words := by
  rw [words, words, ← toList_toSet, ← toList_toSet, beq_iff.1 h]

theorem toSet_eq_iff {t u : FluentTable B} :
    t.toSet = u.toSet ↔ ∀ f, t.contains f = u.contains f := by
  refine ⟨fun h f => Bool.eq_iff_iff.2 ?_, fun h => FluentSet.ext fun f => ?_⟩
  · rw [contains_iff, contains_iff, h]
  · rw [← contains_iff, ← contains_iff, h f]

end FluentTable

/-! ## Pairs and actions

Conditions and effects are pairs of tables and actions are made of these, so equality, hashing
and encoding come down to tables, side by side. -/

variable {B : Type} [BitRow B]

namespace TablePair

/-- The same elements on either side. -/
def SameElements (p q : TablePair B) : Prop :=
  (∀ f, p.positive.contains f = q.positive.contains f) ∧
    ∀ f, p.negative.contains f = q.negative.contains f

theorem sameElements_iff_condition {p q : TablePair B} :
    p.SameElements q ↔ p.condition = q.condition := by
  rw [SameElements, ← FluentTable.toSet_eq_iff, ← FluentTable.toSet_eq_iff, condition, condition,
    Condition.mk.injEq]

theorem beq_iff_sameElements {p q : TablePair B} : (p == q) = true ↔ p.SameElements q :=
  beq_iff_condition.trans sameElements_iff_condition.symm

theorem isEmpty_iff {p : TablePair B} :
    p.isEmpty = true ↔ ∀ f, p.positive.contains f = false ∧ p.negative.contains f = false := by
  rw [← isEmpty_condition, Condition.isEmpty, Bool.and_eq_true, FluentSet.isEmpty_iff,
    FluentSet.isEmpty_iff, ← forall_and]
  simp only [condition, ← FluentTable.contains_iff, Bool.not_eq_true]

theorem words_eq_of_beq {p q : TablePair B} (h : (p == q) = true) : p.words = q.words := by
  obtain ⟨hpositive, hnegative⟩ := Bool.and_eq_true_iff.1 h
  rw [words, words, FluentTable.words_eq_of_beq hpositive, FluentTable.words_eq_of_beq hnegative]

end TablePair

namespace TableAction

/-- The same precondition and, in the same order, the same guards and effects. -/
def SameElements (a b : TableAction B) : Prop :=
  a.precondition.SameElements b.precondition ∧
    List.Forall₂ (fun e e' => e.1.SameElements e'.1 ∧ e.2.SameElements e'.2) a.effects b.effects

theorem SameElements.action {a b : TableAction B} (h : a.SameElements b) :
    a.action.precondition = b.action.precondition ∧ a.action.effects = b.action.effects := by
  refine ⟨TablePair.sameElements_iff_condition.1 h.1, ?_⟩
  refine List.forall₂_eq_eq_eq ▸ List.forall₂_map_left_iff.2 (List.forall₂_map_right_iff.2 ?_)
  refine h.2.imp fun {e e'} he => ?_
  rw [TablePair.sameElements_iff_condition.1 he.1,
    TablePair.beq_iff_effect.1 (TablePair.beq_iff_sameElements.2 he.2)]

/-- The name is not encoded, and neither is the row of a table. -/
theorem SameElements.encodeAction {a b : TableAction B} (h : a.SameElements b) (r : Registry)
    (id : ActionId) (out : List Clause) :
    SnapshotPlan.encodeAction r id a.action out = SnapshotPlan.encodeAction r id b.action out := by
  have hof : Implication.ofAction id a.action = Implication.ofAction id b.action := by
    rw [Implication.ofAction, Implication.ofAction, h.action.1, h.action.2]
  rw [SnapshotPlan.encodeAction, SnapshotPlan.encodeAction, Emission.ofAction, Emission.ofAction,
    hof]

end TableAction

/-! ## The elements and nothing else -/

open FluentTable in
/-- **A table tells its elements and nothing else.**  Whatever calls made it, it answers as the set
of the fluents that were inserted last rather than erased last; tables are equal iff these sets are,
and then they are hashed from the same words.  Of the two tables of a condition or an effect,
equality, emptiness and the hashed words show no more, and neither do the clauses of an action. -/
theorem tables_tell_elements (B : Type) [BitRow B] :
    (∀ calls name, (after calls name : FluentTable B).Represents (members calls name)) ∧
    (∀ calls name calls' name',
      (((after calls name : FluentTable B) == after calls' name') = true ↔
        members calls name = members calls' name') ∧
      (members calls name = members calls' name' →
        (after calls name : FluentTable B).words = (after calls' name' : FluentTable B).words)) ∧
    (∀ p q : TablePair B,
      ((p == q) = true ↔ p.SameElements q) ∧
      (p.isEmpty = true ↔ ∀ f, p.positive.contains f = false ∧ p.negative.contains f = false) ∧
      (p.SameElements q → p.words = q.words ∧ p.condition = q.condition ∧ p.effect = q.effect) ∧
      p.condition.isEmpty = p.isEmpty ∧ p.effect.isEmpty = p.isEmpty) ∧
    ∀ a b : TableAction B, a.SameElements b →
      ∀ r id out, encodeAction r id a.action out = encodeAction r id b.action out := by
  refine ⟨fun calls name => represents fun f => mem_toSet_after, fun calls name calls' name' => ?_,
    fun p q => ?_, fun a b h => h.encodeAction⟩
  · exact ⟨after_beq_iff, fun h => FluentTable.words_eq_of_beq (after_beq_iff.2 h)⟩
  · refine ⟨TablePair.beq_iff_sameElements, TablePair.isEmpty_iff, fun h => ?_, p.isEmpty_condition,
      p.isEmpty_effect⟩
    have heq := TablePair.beq_iff_sameElements.2 h
    exact ⟨TablePair.words_eq_of_beq heq, TablePair.beq_iff_condition.1 heq,
      TablePair.beq_iff_effect.1 heq⟩

open FluentTable in
/-- A row of a hundred and fifty-one bits without its largest elements equals one of four bits, and
its greatest element is among what is left. -/
theorem tables_tell_elements_sparse :
    let calls : List Call :=
      [.ofLength "long" 100, .insert "long" ⟨3⟩, .insert "long" ⟨150⟩, .insert "long" ⟨1⟩,
        .erase "long" ⟨150⟩, .erase "long" ⟨200⟩, .ofList "short" [⟨3⟩, ⟨1⟩, ⟨3⟩]]
    let long : FluentTable SparseBits := after calls "long"
    let short : FluentTable SparseBits := after calls "short"
    (long == short) = true ∧ long.words = short.words ∧ long.max? = some ⟨3⟩ ∧
      BitRow.length long.bits = 151 ∧ BitRow.length short.bits = 4 := by
  intro calls long short
  obtain ⟨answers, equality, -, -⟩ := tables_tell_elements SparseBits
  have hlong : ∀ f, f ∈ members calls "long" ↔ f = ⟨1⟩ ∨ f = ⟨3⟩ := by
    intro f
    simp only [members, Set.mem_ofPred_eq, calls, List.reverse_cons, List.reverse_nil,
      List.nil_append, List.cons_append, lastChange?]
    grind
  have hshort : ∀ f, f ∈ members calls "short" ↔ f = ⟨1⟩ ∨ f = ⟨3⟩ := by
    intro f
    simp only [members, Set.mem_ofPred_eq, calls, List.reverse_cons, List.reverse_nil,
      List.nil_append, List.cons_append, lastChange?]
    grind
  have hsame : members calls "long" = members calls "short" :=
    Set.ext fun f => (hlong f).trans (hshort f).symm
  refine ⟨(equality ..).1.2 hsame, (equality ..).2 hsame, ?_, ?_, ?_⟩
  · refine ((answers calls "long").max?_eq_some_iff _).2 ⟨(hlong _).2 (.inr rfl), fun g hg => ?_⟩
    rcases (hlong g).1 hg with rfl | rfl <;> decide
  · rfl
  · rfl

end SnapshotPlan
