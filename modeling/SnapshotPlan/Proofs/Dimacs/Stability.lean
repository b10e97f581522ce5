import Mathlib
import SnapshotPlan.Dimacs.Conversion
import SnapshotPlan.Proofs.Dimacs.Lines

/-!
# What is read is well formed and stable

A text may be anything, but a formula that is read from one is within bounds, agrees with the header
of the text, can be converted, and survives being written and read again.

## What is here

* `RawFormula.Within` and its `exists_convert` — **a formula within the bounds of the reader is
  converted**, and nothing about it changes.
* `Reading.formula_eq_ok_iff` — what the end of a text makes of the clauses and the header.
* `eq_of_declares`, `isGreatest_of_not_declares`, `length_clauses_le_of_read` — a formula that is
  read, next to its text.
* `readConverted_eq` — **conversion refuses nothing that the reader lets pass.**
* `read_stable` — all of it in one statement.
-/

set_option autoImplicit false

namespace SnapshotPlan.Dimacs

open Text

/-! ## Conversion

Literals that count from zero are turned into literals that count from one.  This can fail only
for want of a variable, and within the bounds of the reader there always is one. -/

theorem RawLit.exists_convert {l : RawLit} (h : l.index < maxVar) :
    ∃ k : Lit, l.convert = .ok k ∧ k.raw = l := by
  have hnumber : (UInt32.ofNat l.index + 1).toNat = l.index + 1 := by
    rw [UInt32.toNat_add, UInt32.toNat_ofNat', UInt32.toNat_one]
    simp only [maxVar] at h
    omega
  have hvar : l.index + 1 ≤ Var.maxId := by
    simp only [maxVar, Var.maxId] at *
    omega
  have hid : Var.ofId? (l.index + 1) = some ⟨l.index + 1, Nat.succ_pos _, hvar⟩ :=
    Var.ofId?_eq_some_iff.2 rfl
  refine ⟨⟨⟨l.index + 1, Nat.succ_pos _, hvar⟩, l.positive⟩, ?_, rfl⟩
  rw [convert, hnumber, hid]

theorem RawLit.exists_mapM_convert {ls : List RawLit} (h : ∀ l ∈ ls, l.index < maxVar) :
    ∃ ks : List Lit, ls.mapM convert = .ok ks ∧ ks.map Lit.raw = ls := by
  induction ls with
  | nil => exact ⟨[], rfl, rfl⟩
  | cons l ls ih =>
    obtain ⟨hl, hls⟩ := List.forall_mem_cons.1 h
    obtain ⟨k, hk, rfl⟩ := RawLit.exists_convert hl
    obtain ⟨ks, hks, rfl⟩ := ih hls
    refine ⟨k :: ks, ?_, rfl⟩
    rw [List.mapM_cons, hk, hks]
    rfl

namespace RawFormula

/-- No more variables than the reader lets pass, and no literal beyond them. -/
structure Within (g : RawFormula) : Prop where
  varCount_le : g.varCount ≤ maxVar
  index_lt : ∀ c ∈ g.clauses, ∀ l ∈ c, l.index < g.varCount

/-- Clauses whose literals all have variables are added one after another. -/
theorem exists_foldlM_convert {cs : List (List RawLit)} (h : ∀ c ∈ cs, ∀ l ∈ c, l.index < maxVar) :
    ∃ ds : List Clause, (ds.map fun d => d.lits.map Lit.raw) = cs ∧ ∀ f : Formula,
      cs.foldlM (fun g c => (c.mapM RawLit.convert).map fun ls => g.add ⟨ls⟩) f =
        .ok (ds.foldl Formula.add f) := by
  induction cs with
  | nil => exact ⟨[], rfl, fun f => rfl⟩
  | cons c cs ih =>
    obtain ⟨hc, hcs⟩ := List.forall_mem_cons.1 h
    obtain ⟨ls, hls, rfl⟩ := RawLit.exists_mapM_convert hc
    obtain ⟨ds, rfl, hds⟩ := ih hcs
    refine ⟨⟨ls⟩ :: ds, rfl, fun f => ?_⟩
    rw [List.foldlM_cons, hls]
    exact hds (f.add ⟨ls⟩)

/-- **A formula within the bounds is converted, and nothing about it changes.** -/
theorem Within.exists_convert {g : RawFormula} (h : g.Within) :
    ∃ f, g.convert = .ok f ∧ f.raw = g := by
  have hindex : ∀ c ∈ g.clauses, ∀ l ∈ c, l.index < maxVar := fun c hc l hl =>
    Nat.lt_of_lt_of_le (h.index_lt c hc l hl) h.varCount_le
  obtain ⟨ds, hds, hfold⟩ := exists_foldlM_convert hindex
  have hreach : Formula.reachAll g.varCount ds = g.varCount := by
    refine Formula.reachAll_eq_self fun d hd l hl => ?_
    have hd' : d.lits.map Lit.raw ∈ g.clauses := hds ▸ List.mem_map_of_mem hd
    rw [l.var.id_eq_index_succ]
    exact h.index_lt _ hd' _ (List.mem_map_of_mem hl)
  refine ⟨.ofClauses g.varCount ds, ?_, ?_⟩
  · rw [convert, if_pos (Nat.lt_of_le_of_lt h.varCount_le (by decide)), hfold,
      Formula.foldl_add_eq_ofClauses]
  · rw [Formula.raw_eq]
    exact congr (congrArg RawFormula.mk hreach) hds

end RawFormula

/-- The raw form of a formula tells what the formula is. -/
theorem raw_injective : Function.Injective Formula.raw := by
  intro f g h
  rw [f.raw_eq, g.raw_eq] at h
  have hlit : Function.Injective Lit.raw := fun k l hkl =>
    Lit.ext (Var.index_inj.1 (congrArg RawLit.index hkl)) (congrArg RawLit.positive hkl)
  have hclause : Function.Injective fun c : Clause => c.lits.map Lit.raw := fun c d hcd => by
    obtain ⟨ls⟩ := c
    obtain ⟨ks⟩ := d
    exact congrArg Clause.mk (List.map_injective_iff.2 hlit hcd)
  exact Formula.ext (congrArg RawFormula.varCount h)
    (List.map_injective_iff.2 hclause (congrArg RawFormula.clauses h))

/-- **A formula that the header of a text can declare is converted to itself.** -/
theorem convert_raw {f : Formula} (h : f.numVars ≤ maxVar) : f.raw.convert = .ok f := by
  have hwithin : f.raw.Within := by
    rw [f.raw_eq]
    refine ⟨h, List.forall_mem_map.2 fun c hc => List.forall_mem_map.2 fun l hl => ?_⟩
    have hle := f.declared c hc l hl
    rw [l.var.id_eq_index_succ] at hle
    exact hle
  obtain ⟨g, hg, hraw⟩ := hwithin.exists_convert
  rw [hg, raw_injective hraw]

/-! ## What is read -/

namespace Reading

variable {r : Reading} {f : Formula} {bytes : List UInt8}

/-- **The end of a text**: the clauses make up the formula, and they have to agree with the header
if there is one. -/
theorem formula_eq_ok_iff : r.formula = .ok f ↔
    f = .ofClauses ((r.header.map Header.numVars).getD 0) r.closed.reverse ∧
      ∀ h, r.header = some h → f.numVars = h.numVars ∧ f.clauses.length = h.numClauses := by
  rw [formula]
  rcases r.header with _ | h
  · simp [eq_comm]
  · simp only [Option.some.injEq, forall_eq', Option.map_some, Option.getD_some]
    split_ifs with hvars hclauses
    · refine iff_of_false (fun h => by cases h) ?_
      rintro ⟨rfl, h, -⟩
      exact hvars h
    · refine iff_of_false (fun h => by cases h) ?_
      rintro ⟨rfl, -, h⟩
      exact hclauses h
    · rw [Except.ok.injEq, eq_comm, iff_self_and]
      rintro rfl
      exact ⟨not_not.1 hvars, not_not.1 hclauses⟩

/-- The number of variables is the largest that the header declares or a clause uses. -/
theorem isGreatest_of_formula (h : r.formula = .ok f) :
    IsGreatest {k | k = (r.header.map Header.numVars).getD 0 ∨
      ∃ c ∈ f.clauses, ∃ l ∈ c.lits, l.var.id = k} f.numVars := by
  obtain ⟨rfl, -⟩ := formula_eq_ok_iff.1 h
  exact Formula.isGreatest_reachAll _ _

theorem Bounded.numVars_le (hr : Bounded bytes r) (h : r.formula = .ok f) :
    f.numVars ≤ maxVar := by
  obtain hdeclared | ⟨c, hc, l, hl, hused⟩ := (isGreatest_of_formula h).1
  · rw [hdeclared]
    cases r.header with
    | none => exact Nat.zero_le _
    | some header => exact header.numVars_le
  · obtain ⟨rfl, -⟩ := formula_eq_ok_iff.1 h
    rw [← hused]
    exact hr.closed_le c (List.mem_reverse.1 hc) l hl

theorem Bounded.length_clauses_le (hr : Bounded bytes r) (h : r.formula = .ok f) :
    2 * f.clauses.length ≤ bytes.length := by
  obtain ⟨rfl, -⟩ := formula_eq_ok_iff.1 h
  have hlen : r.closed.reverse.length = r.closed.length := List.length_reverse
  exact Nat.le_trans (hlen ▸ Nat.le_add_right _ _) hr.length_le

end Reading

variable {bytes : List UInt8} {f : Formula}

theorem numVars_le_of_read (h : read bytes = .ok f) : f.numVars ≤ maxVar := by
  obtain ⟨r, hformula, hbounded, -⟩ := Reading.exists_of_read h
  exact hbounded.numVars_le hformula

/-- **The header of the text is that of the formula.** -/
theorem eq_of_declares (h : read bytes = .ok f) {v c : Nat} (hd : Declares bytes v c) :
    f.numVars = v ∧ f.clauses.length = c := by
  obtain ⟨r, hformula, -, hheader⟩ := Reading.exists_of_read h
  obtain ⟨header, hsome, rfl, rfl⟩ := (hheader v c).1 hd
  exact (Reading.formula_eq_ok_iff.1 hformula).2 header hsome

/-- **Without a header, only variables that are used count.** -/
theorem isGreatest_of_not_declares (h : read bytes = .ok f) (hd : ∀ v c, ¬ Declares bytes v c) :
    IsGreatest {k | k = 0 ∨ ∃ c ∈ f.clauses, ∃ l ∈ c.lits, l.var.id = k} f.numVars := by
  obtain ⟨r, hformula, -, hheader⟩ := Reading.exists_of_read h
  have hnone : r.header = none := by
    refine Option.eq_none_iff_forall_ne_some.2 fun header hsome => ?_
    exact hd _ _ ((hheader _ _).2 ⟨header, hsome, rfl, rfl⟩)
  have hgreatest := Reading.isGreatest_of_formula hformula
  rwa [hnone] at hgreatest

/-- **A text has twice as many bytes as the formula has clauses**, but for the last line end. -/
theorem length_clauses_le_of_read (h : read bytes = .ok f) :
    2 * f.clauses.length ≤ bytes.length + 1 := by
  obtain ⟨r, hformula, hbounded, -⟩ := Reading.exists_of_read h
  have hlen := hbounded.length_clauses_le hformula
  rwa [List.length_append, List.length_singleton] at hlen

/-- **Conversion refuses nothing that the reader lets pass.** -/
theorem readConverted_eq (bytes : List UInt8) :
    readConverted bytes = (read bytes).mapError .inl := by
  rw [readConverted]
  rcases h : read bytes with fault | f
  · rfl
  · show f.raw.convert.mapError _ = _
    rw [convert_raw (numVars_le_of_read h)]
    rfl

/-- **What is read is well formed and stable.**  If a text is read, then the variables of the
formula are declared and there are at most `maxVar` of them; the numbers of variables and clauses
are those of the header, if the text has one, and otherwise the variables are those that are used;
and writing the formula and reading it again changes nothing, unless there are more clauses than a
header can count, which takes a text of 2⁶⁵ − 1 bytes.  Whatever is within the bounds of the reader
is converted, and so conversion refuses no text. -/
theorem read_stable :
    (∀ (bytes : List UInt8) (f : Formula), read bytes = .ok f →
      (∀ c ∈ f.clauses, ∀ l ∈ c.lits, l.toInt ≠ 0 ∧ l.var.id ≤ f.numVars) ∧
      f.numVars ≤ maxVar ∧
      (∀ v c, Declares bytes v c → f.numVars = v ∧ f.clauses.length = c) ∧
      ((∀ v c, ¬ Declares bytes v c) →
        IsGreatest {k | k = 0 ∨ ∃ c ∈ f.clauses, ∃ l ∈ c.lits, l.var.id = k} f.numVars) ∧
      2 * f.clauses.length ≤ bytes.length + 1 ∧
      (f.clauses.length < UInt64.size → read f.toDimacs = .ok f)) ∧
    (∀ g : RawFormula, g.Within → ∃ f, g.convert = .ok f ∧ f.raw = g) ∧
    ∀ bytes, readConverted bytes = (read bytes).mapError .inl ∧
      ∀ misfit, readConverted bytes ≠ .error (.inr misfit) := by
  refine ⟨fun bytes f h => ⟨fun c hc l hl => ⟨?_, f.declared c hc l hl⟩, numVars_le_of_read h,
    fun v c => eq_of_declares h, isGreatest_of_not_declares h, length_clauses_le_of_read h,
    read_toDimacs (numVars_le_of_read h)⟩, fun g => RawFormula.Within.exists_convert,
    fun bytes => ⟨readConverted_eq bytes, ?_⟩⟩
  · have hpos := l.var.id_pos
    rw [← l.natAbs_toInt] at hpos
    exact Int.natAbs_pos.1 hpos
  · rw [readConverted_eq]
    cases read bytes <;> nofun

/-- A comment, a clause that is broken off by a late header, carriage returns, and no line end after
the last number. -/
def ragged : List UInt8 := ascii "c \n1 -2\rp  cnf +3 02\r\n0 \n-0"

theorem declares_ragged : Declares ragged 3 2 := by
  refine ⟨ascii "p  cnf +3 02", by decide, " cnf +3 02", "+3", "02", ?_, by decide, by decide,
    by decide⟩
  exact Utf8.decodeLossy_map_ofNat (s := "p  cnf +3 02") (by decide)

/-- The formula of that text. -/
def raggedFormula : Formula := .ofClauses 3
  [⟨[⟨⟨1, by decide, by decide⟩, true⟩, ⟨⟨2, by decide, by decide⟩, false⟩]⟩, ⟨[]⟩]

/-- The header declares more than is used, and the second clause is empty. -/
theorem read_stable_ragged : read ragged = .ok raggedFormula ∧ raggedFormula.numVars = 3 ∧
    raggedFormula.clauses.length = 2 ∧ read raggedFormula.toDimacs = .ok raggedFormula ∧
      raggedFormula.raw.convert = .ok raggedFormula ∧
        readConverted ragged = .ok raggedFormula := by
  have hread : read ragged = .ok raggedFormula := by cbv
  obtain ⟨-, hvars, hdeclared, -, -, hagain⟩ := read_stable.1 ragged raggedFormula hread
  obtain ⟨hv, hc⟩ := hdeclared 3 2 declares_ragged
  obtain ⟨f, hf, hraw⟩ := read_stable.2.1 raggedFormula.raw ⟨hvars, by decide⟩
  rw [raw_injective hraw] at hf
  refine ⟨hread, hv, hc, hagain (by decide), hf, ?_⟩
  rw [(read_stable.2.2 ragged).1, hread]
  rfl

end SnapshotPlan.Dimacs
