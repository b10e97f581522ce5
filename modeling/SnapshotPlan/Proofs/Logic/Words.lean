import Mathlib.Order.Bounds.Basic
import SnapshotPlan.Logic.Word
import SnapshotPlan.Proofs.Traversal

/-!
# Words hold variables and literals

Computing with words stops where a number does not fit.  With variables and literals that hardly
ever happens: a variable is never so large, and the one word without an opposite is no literal.  So
the words of variables and literals behave like the variables and literals themselves.  There is one
exception, the last position of all: it is refused by the sum and not for want of a variable.

## What is here

* `VarWord.ofIndex?_eq`, `VarWord.ofIndex?_eq_error_iff` — **every position but the last has its
  variable or none.**
* `LitWord.ofInt?_eq_some_iff` — the words that are literals.  `LitWord.exists_lit_of_ofInt?`: they
  are the words of literals.
* `Lit.var_word`, `Lit.positive_word`, `Lit.negate_word`, `Lit.ofVar_word`, `Lit.word_le_iff` —
  **nothing overflows** with the word of a literal.
* `ClauseWord.ofInts?_eq_some_iff`, `ClauseWord.isGreatest_maxVar?` — clauses in words.
* `VarWord.ofId?_eq`, `LitWord.ofInt?_eq`, `ClauseWord.ofInts?_eq`, `ClauseWord.maxVar?_word`, and
  `words_agree` — **nothing changes when words are used.**
* `words_hold_literals` — all of it in one statement.
-/

set_option autoImplicit false

namespace SnapshotPlan

/-! ## Variables -/

@[simp] theorem Var.toNat_id_word (v : Var) : v.word.id.toNat = v.id := UInt32.toNat_ofNatLT

/-- The number below never leaves the word, since there is no variable zero. -/
theorem VarWord.toNat_index (v : VarWord) : v.index.toNat + 1 = v.id.toNat := by
  have hpos : 0 < v.id.toNat := Nat.pos_of_ne_zero fun h => v.ne_zero (UInt32.toNat_inj.1 h)
  have hle : (1 : UInt32) ≤ v.id := UInt32.le_iff_toNat_le.2 hpos
  rw [index, UInt32.toNat_toUInt64, UInt32.toNat_sub_of_le _ _ hle]
  exact Nat.sub_add_cancel hpos

theorem Var.toNat_index_word (v : Var) : v.word.index.toNat = v.index := by
  have hindex := v.word.toNat_index
  rw [toNat_id_word, id_eq_index_succ] at hindex
  exact Nat.succ.inj hindex

namespace VarWord

theorem le_iff {v w : VarWord} : v ≤ w ↔ v.id.toNat ≤ w.id.toNat := UInt32.le_iff_toNat_le

instance : Std.MaxEqOr VarWord where
  max_eq_or v w := by
    show (if v ≤ w then w else v) = v ∨ (if v ≤ w then w else v) = w
    split
    · exact .inr rfl
    · exact .inl rfl

instance : Std.LawfulOrderSup VarWord where
  max_le_iff v w u := by
    show (if v ≤ w then w else v) ≤ u ↔ _
    simp only [le_iff]
    split <;> omega

theorem eq_iff {v w : VarWord} : v = w ↔ v.id.toNat = w.id.toNat := by
  rw [VarWord.ext_iff, UInt32.toNat_inj]

/-- **A number has the same variable in a word.** -/
theorem ofId?_eq (n : UInt32) : ofId? n = (Var.ofId? n.toNat).map Var.word := by
  rw [ofId?, Var.ofId?]
  by_cases hn : 0 < n.toNat ∧ n.toNat ≤ Var.maxId
  · have hne : n ≠ 0 := fun h => Nat.ne_of_gt hn.1 (congrArg UInt32.toNat h)
    rw [if_neg (Nat.not_lt.2 hn.2), dif_pos hne, dif_pos hn, Option.map_some, Option.some.injEq,
      eq_iff, Var.toNat_id_word]
  · rw [dif_neg hn, Option.map_none]
    split
    · rfl
    · next hle =>
      have hzero : n = 0 := UInt32.toNat_inj.1 <| Nat.eq_zero_of_not_pos fun hpos =>
        hn ⟨hpos, Nat.not_lt.1 hle⟩
      rw [dif_neg fun hne => hne hzero]

theorem narrow?_bind_ofId? (n : UInt64) :
    (narrow? n).bind ofId? = (Var.ofId? n.toNat).map Var.word := by
  rw [narrow?]
  split
  · next h =>
    rw [Option.bind_some, ofId?_eq, UInt64.toNat_toUInt32, Nat.mod_eq_of_lt h]
  · next h =>
    have hmax : ¬ n.toNat ≤ Var.maxId := fun hle => h (Nat.lt_of_le_of_lt hle (by decide))
    rw [Option.bind_none, Var.ofId?, dif_neg fun hn => hmax hn.2, Option.map_none]

/-- **Every position but the last has its variable, or none.** -/
theorem ofIndex?_eq {i : UInt64} (h : i.toNat + 1 < UInt64.size) :
    ofIndex? i = .ok ((Var.ofIndex? i.toNat).map Var.word) := by
  have hsum : (i + 1).toNat = i.toNat + 1 := by
    rw [UInt64.toNat_add]
    exact Nat.mod_eq_of_lt h
  have hadd : checkedAdd i 1 = .ok (i + 1) := checkedAdd_eq_ok_iff.2 hsum.symm
  rw [ofIndex?, hadd, Var.ofIndex?, ← hsum, ← narrow?_bind_ofId?]
  rfl

/-- **The last position has no successor**, and is not asked for a variable. -/
theorem ofIndex?_eq_error_iff {i : UInt64} {fault : WordFault} :
    ofIndex? i = .error fault ↔ i.toNat + 1 = UInt64.size ∧ fault = .addOverflow := by
  by_cases h : i.toNat + 1 < UInt64.size
  · rw [ofIndex?_eq h]
    exact iff_of_false nofun fun e => Nat.ne_of_lt h e.1
  · have hadd : checkedAdd i 1 = .error .addOverflow := if_neg h
    have hlast : i.toNat + 1 = UInt64.size :=
      Nat.le_antisymm i.toNat_lt (Nat.not_lt.1 h)
    rw [ofIndex?, hadd, and_iff_right hlast]
    exact ⟨fun e => (Except.error.inj e).symm, fun e => e ▸ rfl⟩

end VarWord

/-! ## Literals

Of the words, zero is no literal and the least one has no opposite.  The others are the words of
literals, and what is computed with one of them fits. -/

namespace LitWord

/-- **The words that are literals**: all but zero and the least. -/
theorem ofInt?_eq_some_iff {x : Int32} {l : LitWord} :
    ofInt? x = some l ↔ x ≠ Int32.minValue ∧ l.number = x := by
  rw [ofInt?]
  split
  · next hmin => exact iff_of_false nofun fun h => h.1 hmin
  · next hmin =>
    split
    · rw [Option.some.injEq, LitWord.ext_iff, and_iff_right hmin]
      exact eq_comm
    · next hzero => exact iff_of_false nofun fun h => l.ne_zero (h.2.trans (not_not.1 hzero))

theorem ofInt?_eq_none_iff {x : Int32} : ofInt? x = none ↔ x = 0 ∨ x = Int32.minValue := by
  rw [Option.eq_none_iff_forall_ne_some]
  constructor
  · intro h
    by_contra hx
    obtain ⟨hzero, hmin⟩ := not_or.1 hx
    exact h ⟨x, hzero⟩ (ofInt?_eq_some_iff.2 ⟨hmin, rfl⟩)
  · rintro (rfl | rfl) l hl
    · exact l.ne_zero (ofInt?_eq_some_iff.1 hl).2
    · exact (ofInt?_eq_some_iff.1 hl).1 rfl

end LitWord

namespace Lit

variable {l k : Lit}

@[simp] theorem toInt_number_word (l : Lit) : l.word.number.toInt = l.toInt := l.toInt_ofInt

/-- No literal is the word without an opposite. -/
theorem number_word_ne_minValue (l : Lit) : l.word.number ≠ Int32.minValue := fun h => by
  have hmin : l.toInt = -2 ^ 31 := by rw [← l.toInt_number_word, h, Int32.toInt_minValue]
  have hsize := l.natAbs_toInt
  have hmax := l.var.id_le
  unfold Var.maxId at hmax
  omega

theorem var_word (l : Lit) : l.word.var = l.var.word := by
  rw [VarWord.eq_iff, Var.toNat_id_word, ← l.natAbs_toInt, ← l.toInt_number_word]
  exact toNat_magnitude _

theorem positive_word (l : Lit) : l.word.positive = l.positive := by
  rw [LitWord.positive, Bool.eq_iff_iff, decide_eq_true_iff, Int32.lt_iff_toInt_lt,
    l.toInt_number_word]
  exact l.toInt_pos_iff

theorem word_eq_of_toInt {w : LitWord} (h : w.number.toInt = l.toInt) : l.word = w := by
  rw [LitWord.ext_iff, ← Int32.toInt_inj, l.toInt_number_word, h]

/-- **The opposite of a literal fits.** -/
theorem negate_word (l : Lit) : l.word.negate = .ok l.negate.word := by
  have hneg : checkedNeg l.word.number = .ok l.negate.word.number := by
    refine checkedNeg_eq_ok_iff.2 ⟨l.number_word_ne_minValue, ?_⟩
    show -Int32.ofInt l.toInt = Int32.ofInt l.negate.toInt
    rw [l.toInt_negate, Int32.ofInt_neg]
  rw [LitWord.negate]
  split
  · next h => rw [hneg] at h; cases h
  · next h =>
    rw [hneg] at h
    exact congrArg Except.ok (LitWord.ext_iff.2 (Except.ok.inj h).symm)

theorem ofVar_word (v : Var) (b : Bool) : LitWord.ofVar v.word b = .ok (Lit.mk v b).word := by
  have hsmall : v.word.id.toNat ≤ Var.maxId := by
    rw [v.toNat_id_word]
    exact v.id_le
  have hnumber : v.word.id.toInt32.toInt = (Lit.mk v true).toInt := by
    rw [toInt_toInt32 hsmall, v.toNat_id_word]
    rfl
  have hpos : (Lit.mk v true).word =
      ⟨v.word.id.toInt32, fun h => v.word.ne_zero (congrArg Int32.toUInt32 h)⟩ :=
    word_eq_of_toInt hnumber
  cases b with
  | true => exact congrArg Except.ok hpos.symm
  | false =>
    show LitWord.negate ⟨v.word.id.toInt32, _⟩ = _
    rw [← hpos]
    exact negate_word _

theorem word_le_iff : l.word ≤ k.word ↔ l.toInt ≤ k.toInt := by
  show l.word.number ≤ k.word.number ↔ _
  rw [Int32.le_iff_toInt_le, l.toInt_number_word, k.toInt_number_word]

end Lit

/-- **A word that is a literal is the word of one.** -/
theorem LitWord.exists_lit_of_ofInt? {x : Int32} {w : LitWord} (h : ofInt? x = some w) :
    ∃ l : Lit, l.word = w ∧ l.toInt = x.toInt := by
  obtain ⟨hmin, rfl⟩ := ofInt?_eq_some_iff.1 h
  have hzero : w.number.toInt ≠ 0 := fun h0 => w.ne_zero (Int32.toInt_inj.1 h0)
  have hleast : w.number.toInt ≠ -2 ^ 31 := fun h0 =>
    hmin (Int32.toInt_inj.1 (h0.trans Int32.toInt_minValue.symm))
  have hlow := w.number.le_toInt
  have hhigh := w.number.toInt_lt
  obtain ⟨l, hl⟩ := Lit.exists_toInt_eq_iff.2
    (show 0 < w.number.toInt.natAbs ∧ w.number.toInt.natAbs ≤ Var.maxId by
      unfold Var.maxId
      omega)
  exact ⟨l, Lit.word_eq_of_toInt hl.symm, hl⟩

/-- **A number has the same literal in a word.** -/
theorem LitWord.ofInt?_eq (x : Int32) : ofInt? x = (Lit.ofInt? x.toInt).map Lit.word := by
  rcases hw : ofInt? x with _ | w
  · rcases hl : Lit.ofInt? x.toInt with _ | l
    · rfl
    · have hx : l.word.number = x := Int32.toInt_inj.1 <| by
        rw [l.toInt_number_word, Lit.toInt_of_ofInt? hl]
      have hsome : ofInt? x = some l.word :=
        ofInt?_eq_some_iff.2 ⟨hx ▸ l.number_word_ne_minValue, hx⟩
      rw [hw] at hsome
      cases hsome
  · obtain ⟨l, rfl, hl⟩ := exists_lit_of_ofInt? hw
    rw [← hl, Lit.ofInt?_toInt, Option.map_some]

/-! ## Clauses -/

namespace ClauseWord

/-- **A list of numbers has the same clause in words.** -/
theorem ofInts?_eq (xs : List Int32) :
    ofInts? xs = (Clause.ofInts? (xs.map Int32.toInt)).map Clause.word := by
  have hlits : xs.mapM LitWord.ofInt? =
      ((xs.map Int32.toInt).mapM Lit.ofInt?).map (List.map Lit.word) := by
    induction xs with
    | nil => rfl
    | cons x xs ih =>
      rw [List.mapM_cons, List.map_cons, List.mapM_cons, ih, LitWord.ofInt?_eq]
      cases Lit.ofInt? x.toInt <;> cases (xs.map Int32.toInt).mapM Lit.ofInt? <;> rfl
  rw [ofInts?, hlits, Clause.ofInts?, Option.map_map, Option.map_map]
  rfl

/-- **The lists of words that are clauses**: no element is zero or the least word. -/
theorem ofInts?_eq_some_iff {xs : List Int32} {c : ClauseWord} :
    ofInts? xs = some c ↔ (∀ x ∈ xs, x ≠ Int32.minValue) ∧ c.toInts = xs := by
  obtain ⟨ls⟩ := c
  have hlits : ofInts? xs = some ⟨ls⟩ ↔ xs.map LitWord.ofInt? = ls.map some := by
    simp [ofInts?, ← mapM_eq_some_iff]
  rw [hlits]
  show _ ↔ _ ∧ ls.map LitWord.number = xs
  clear hlits
  induction xs generalizing ls with
  | nil => simp
  | cons x xs ih =>
    cases ls with
    | nil => simp
    | cons l ls =>
      rw [List.map_cons, List.map_cons, List.map_cons, List.cons.injEq, List.cons.injEq, ih,
        LitWord.ofInt?_eq_some_iff, List.forall_mem_cons]
      exact and_and_and_comm

theorem exists_ofInts?_iff {xs : List Int32} :
    (∃ c, ofInts? xs = some c) ↔ ∀ x ∈ xs, x ≠ 0 ∧ x ≠ Int32.minValue := by
  have hone : ∀ x, (∃ l, LitWord.ofInt? x = some l) ↔ x ≠ 0 ∧ x ≠ Int32.minValue := fun x => by
    rw [← Option.ne_none_iff_exists', Ne, LitWord.ofInt?_eq_none_iff, not_or]
  simp only [ofInts?, Option.map_eq_some_iff, ← hone]
  rw [← exists_mapM_eq_some_iff]
  exact ⟨fun ⟨_, ls, hls, _⟩ => ⟨ls, hls⟩, fun ⟨ls, hls⟩ => ⟨_, ls, hls, rfl⟩⟩

variable {c : ClauseWord}

theorem maxVar?_eq_none_iff : c.maxVar? = none ↔ c.lits = [] := by
  rw [maxVar?, List.max?_eq_none_iff, List.map_eq_nil_iff]

/-- **The largest variable is the largest size of a number.** -/
theorem isGreatest_maxVar? {v : VarWord} (h : c.maxVar? = some v) :
    IsGreatest {n | ∃ x ∈ c.toInts, x.toInt.natAbs = n} v.id.toNat := by
  have hsize : ∀ l : LitWord, l.var.id.toNat = l.number.toInt.natAbs := fun l =>
    toNat_magnitude l.number
  have hmax := (List.max?_le_iff h).1 (VarWord.le_iff.2 (Nat.le_refl v.id.toNat))
  constructor
  · obtain ⟨l, hl, rfl⟩ := List.mem_map.1 (List.max?_mem h)
    exact ⟨l.number, List.mem_map_of_mem hl, (hsize l).symm⟩
  · rintro n ⟨x, hx, rfl⟩
    obtain ⟨l, hl, rfl⟩ := List.mem_map.1 hx
    rw [← hsize]
    exact VarWord.le_iff.1 (hmax l.var (List.mem_map_of_mem hl))

/-- **A clause has the same largest variable in words.** -/
theorem maxVar?_word (c : Clause) : c.word.maxVar?.map (·.id.toNat) = c.maxVar? := by
  have hid : ∀ l : Lit, l.word.var.id.toNat = l.var.id := fun l => by
    rw [l.var_word, Var.toNat_id_word]
  rcases hv : c.word.maxVar? with _ | v
  · have hnil : c.lits = [] := List.map_eq_nil_iff.1 (maxVar?_eq_none_iff.1 hv)
    rw [Option.map_none, Clause.maxVar?, hnil]
    rfl
  · have hmax := (List.max?_le_iff hv).1 (VarWord.le_iff.2 (Nat.le_refl v.id.toNat))
    obtain ⟨w, hw, rfl⟩ := List.mem_map.1 (List.max?_mem hv)
    obtain ⟨l, hl, rfl⟩ := List.mem_map.1 hw
    rw [Option.map_some, Clause.maxVar?, eq_comm, List.max?_eq_some_iff, hid]
    refine ⟨List.mem_map_of_mem hl, fun n hn => ?_⟩
    obtain ⟨k, hk, rfl⟩ := List.mem_map.1 hn
    rw [← hid, ← hid]
    exact VarWord.le_iff.1 (hmax _ (List.mem_map_of_mem (List.mem_map_of_mem hk)))

end ClauseWord

/-! ## The same in words

Elsewhere variables and literals are numbers without a word around them.  Nothing is lost that
way. -/

/-- **Nothing changes when words are used**: a number or a position has the same variable, a signed
number the same literal, and a list of them the same clause.  The word of a literal has the same
variable, sign and opposite, the order of literals is the same, and so is the largest variable of a
clause. -/
theorem words_agree :
    (∀ n : UInt32, VarWord.ofId? n = (Var.ofId? n.toNat).map Var.word) ∧
    (∀ i : UInt64, i.toNat + 1 < UInt64.size →
      VarWord.ofIndex? i = .ok ((Var.ofIndex? i.toNat).map Var.word)) ∧
    (∀ x : Int32, LitWord.ofInt? x = (Lit.ofInt? x.toInt).map Lit.word) ∧
    (∀ xs : List Int32,
      ClauseWord.ofInts? xs = (Clause.ofInts? (xs.map Int32.toInt)).map Clause.word) ∧
    (∀ l : Lit, l.word.var = l.var.word ∧ l.word.positive = l.positive ∧
      l.word.negate = .ok l.negate.word) ∧
    (∀ l k : Lit, l.word ≤ k.word ↔ l.toInt ≤ k.toInt) ∧
    ∀ c : Clause, c.word.maxVar?.map (·.id.toNat) = c.maxVar? :=
  ⟨VarWord.ofId?_eq, fun _ => VarWord.ofIndex?_eq, LitWord.ofInt?_eq, ClauseWord.ofInts?_eq,
    fun l => ⟨l.var_word, l.positive_word, l.negate_word⟩, fun _ _ => Lit.word_le_iff,
    ClauseWord.maxVar?_word⟩

/-! ## In one statement -/

/-- **A position has the variable of that number, or none if it is too large, as long as it has a
successor.** -/
theorem VarWord.exists_ofIndex?_iff {i : UInt64} :
    (∃ found, ofIndex? i = .ok found ∧
      (i.toNat < Var.maxId → ∃ v, found = some v ∧ v.index = i) ∧
      (Var.maxId ≤ i.toNat → found = none)) ↔ i.toNat + 1 < UInt64.size := by
  constructor
  · rintro ⟨found, hfound, -⟩
    by_contra h
    have hlast : i.toNat + 1 = UInt64.size := Nat.le_antisymm i.toNat_lt (Nat.not_lt.1 h)
    rw [ofIndex?_eq_error_iff.2 ⟨hlast, rfl⟩] at hfound
    cases hfound
  · intro h
    refine ⟨_, ofIndex?_eq h, fun hlt => ?_, fun hle => ?_⟩
    · rcases hv : Var.ofIndex? i.toNat with _ | v
      · exact absurd (Var.ofIndex?_eq_none_iff.1 hv) (Nat.not_le.2 hlt)
      · refine ⟨v.word, rfl, UInt64.toNat_inj.1 ?_⟩
        rw [v.toNat_index_word, Var.ofIndex?_eq_some_iff.1 hv]
    · rw [Var.ofIndex?_eq_none_iff.2 hle, Option.map_none]

/-- A literal in a word keeps its number, is made of its variable and its sign, and has an
opposite. -/
theorem LitWord.sound_of_ofInt? {x : Int32} {l : LitWord} (h : ofInt? x = some l) :
    l.number = x ∧ l.var.id.toNat = x.toInt.natAbs ∧ VarWord.ofId? l.var.id = some l.var ∧
      ofVar l.var l.positive = .ok l ∧
      ∃ k, l.negate = .ok k ∧ k.number.toInt = -x.toInt ∧ k.var = l.var ∧
        k.positive = !l.positive ∧ k.negate = .ok l := by
  have hnumber : l.number = x := (ofInt?_eq_some_iff.1 h).2
  obtain ⟨k, rfl, hk⟩ := exists_lit_of_ofInt? h
  refine ⟨hnumber, ?_, ?_, ?_, k.negate.word, k.negate_word, ?_, ?_, ?_, ?_⟩
  · rw [k.var_word, Var.toNat_id_word, ← hk, k.natAbs_toInt]
  · rw [k.var_word, VarWord.ofId?_eq, Var.toNat_id_word, Var.ofId?_eq_some_iff.2 rfl,
      Option.map_some]
  · rw [k.var_word, k.positive_word]
    exact Lit.ofVar_word k.var k.positive
  · rw [Lit.toInt_number_word, k.toInt_negate, hk]
  · rw [k.var_word, k.negate.var_word]
    rfl
  · rw [k.positive_word, k.negate.positive_word]
    rfl
  · rw [k.negate.negate_word, k.negate_negate]

/-- **Words hold variables and literals.**  A position has the variable of that number, or none if
it is too large, unless it is the last of all, whose successor does not fit.  A word is a literal
unless it is zero or the least; it is kept as it is, its variable is its size, and it is made of its
variable and its sign.  Its opposite fits, is about the same variable with the other sign, and has
the literal for its own opposite.  Literals are ordered like their numbers.  A list of words is a
clause iff each is a literal; it is kept as it is, and the largest variable is the largest size. -/
theorem words_hold_literals (i : UInt64) (x : Int32) (xs : List Int32) :
    ((∃ found, VarWord.ofIndex? i = .ok found ∧
      (i.toNat < Var.maxId → ∃ v, found = some v ∧ v.index = i) ∧
      (Var.maxId ≤ i.toNat → found = none)) ↔ i.toNat + 1 < UInt64.size) ∧
    (∀ fault, VarWord.ofIndex? i = .error fault ↔
      i.toNat + 1 = UInt64.size ∧ fault = .addOverflow) ∧
    (LitWord.ofInt? x = none ↔ x = 0 ∨ x = Int32.minValue) ∧
    (∀ l, LitWord.ofInt? x = some l →
      l.number = x ∧ l.var.id.toNat = x.toInt.natAbs ∧ VarWord.ofId? l.var.id = some l.var ∧
      LitWord.ofVar l.var l.positive = .ok l ∧
      (∃ k, l.negate = .ok k ∧ k.number.toInt = -x.toInt ∧ k.var = l.var ∧
        k.positive = !l.positive ∧ k.negate = .ok l) ∧
      ∀ y k, LitWord.ofInt? y = some k → (l ≤ k ↔ x.toInt ≤ y.toInt)) ∧
    ((∃ c, ClauseWord.ofInts? xs = some c) ↔ ∀ y ∈ xs, y ≠ 0 ∧ y ≠ Int32.minValue) ∧
    ∀ c, ClauseWord.ofInts? xs = some c → c.toInts = xs ∧ (c.maxVar? = none ↔ xs = []) ∧
      ∀ v, c.maxVar? = some v → IsGreatest {n | ∃ y ∈ xs, y.toInt.natAbs = n} v.id.toNat := by
  refine ⟨VarWord.exists_ofIndex?_iff, fun fault => VarWord.ofIndex?_eq_error_iff,
    LitWord.ofInt?_eq_none_iff, fun l hl => ?_, ClauseWord.exists_ofInts?_iff, fun c hc => ?_⟩
  · obtain ⟨rfl, hvar, hinside, hrebuilt, hopposite⟩ := LitWord.sound_of_ofInt? hl
    refine ⟨rfl, hvar, hinside, hrebuilt, hopposite, fun y k hk => ?_⟩
    obtain ⟨-, rfl⟩ := LitWord.ofInt?_eq_some_iff.1 hk
    exact Int32.le_iff_toInt_le
  · obtain ⟨-, rfl⟩ := ClauseWord.ofInts?_eq_some_iff.1 hc
    refine ⟨rfl, ?_, fun v hv => ClauseWord.isGreatest_maxVar? hv⟩
    rw [ClauseWord.maxVar?_eq_none_iff, ClauseWord.toInts, List.map_eq_nil_iff]

/-- The last variable, a position beyond all variables, and a clause with the largest literal both
ways. -/
theorem words_hold_literals_corners :
    (∃ v, VarWord.ofIndex? 2147483646 = .ok (some v) ∧ v.index = 2147483646) ∧
      VarWord.ofIndex? 18446744073709551614 = .ok none ∧
      ∃ c, ClauseWord.ofInts? [-2147483647, 5, 2147483647] = some c ∧
        c.toInts = [-2147483647, 5, 2147483647] ∧
        ∃ v, c.maxVar? = some v ∧ v.id = 2147483647 := by
  obtain ⟨hlast, -, -, -, hvalid, hclause⟩ :=
    words_hold_literals 2147483646 0 [-2147483647, 5, 2147483647]
  obtain ⟨hlarge, -⟩ := words_hold_literals 18446744073709551614 0 []
  obtain ⟨found, hfound, hsome, -⟩ := hlast.2 (by decide)
  obtain ⟨v, rfl, hv⟩ := hsome (by decide)
  obtain ⟨found', hfound', -, hnone⟩ := hlarge.2 (by decide)
  obtain ⟨c, hc⟩ := hvalid.2 <| by
    rw [List.forall_mem_cons, List.forall_mem_cons, List.forall_mem_singleton]
    decide
  obtain ⟨hints, hempty, hgreatest⟩ := hclause c hc
  obtain ⟨v', hv'⟩ := Option.ne_none_iff_exists'.1 (mt hempty.1 (List.cons_ne_nil _ _))
  have hsizes : ∀ x ∈ [-2147483647, 5, (2147483647 : Int32)], x.toInt.natAbs ≤ 2147483647 := by
    rw [List.forall_mem_cons, List.forall_mem_cons, List.forall_mem_singleton]
    decide
  have hsize : v'.id.toNat = 2147483647 := by
    refine (hgreatest v' hv').unique ⟨⟨2147483647, by decide, rfl⟩, ?_⟩
    rintro n ⟨x, hx, rfl⟩
    exact hsizes x hx
  exact ⟨⟨v, hfound, hv⟩, hnone (by decide) ▸ hfound', c, hc, hints, v', hv',
    UInt32.toNat_inj.1 hsize⟩

/-- **The last position has no variable and is not found to have none**: its successor does not
fit. -/
theorem ofIndex?_last : ¬ ∀ i : UInt64, ∃ found, VarWord.ofIndex? i = .ok found := fun h => by
  obtain ⟨found, hfound⟩ := h 18446744073709551615
  have hlast : VarWord.ofIndex? 18446744073709551615 = .error .addOverflow := by decide
  rw [hlast] at hfound
  cases hfound

end SnapshotPlan
