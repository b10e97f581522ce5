import Mathlib.Order.Bounds.Defs
import SnapshotPlan.Dimacs.Reader
import SnapshotPlan.Dimacs.Writer
import SnapshotPlan.Proofs.Text.Reading

/-!
# Formulas survive being written and read

What is written has a simple form, and the reader goes through it piece by piece: a number leaves
it inside a literal, a blank adds the literal to the clause under way, and so on up to the whole
text.

## What is here

* `Formula.isGreatest_reachAll` — the number of variables that a header declares, and
  `Formula.raw_eq`: it is the same for the raw form that is written.
* `Formula.headerLine`, `Clause.line` — the lines of the text.  `toDimacs_eq` and
  `Formula.dimacsText_eq`: they are what is written, as bytes and as text.
* `Reading.run` — reading several bytes.  `run_natBytes`, `run_litBytes`, `run_clauseBytes` and
  `run_headerBytes`: what each piece of the text does to the reader.
* `read_toDimacs` — **a formula is read back from its text**, unless it is too large, and
  `Formula.dimacs_roundtrip`, the same for a formula under construction.
-/

set_option autoImplicit false

namespace SnapshotPlan

open Text

/-! ## Lines

What a formula looks like in print, without any bytes: a line that declares its numbers, and then
one line for each clause. -/

/-- A clause on a line: each literal and a blank, then a zero. -/
def Clause.line (c : Clause) : String := String.join (c.lits.map fun l => l.render ++ " ") ++ "0\n"

/-- The line that declares the numbers of variables and clauses. -/
def Formula.headerLine (f : Formula) : String :=
  "p cnf " ++ toString f.numVars ++ " " ++ toString f.clauses.length ++ "\n"

/-- A literal is written as its variable, with a minus sign if it denies it. -/
theorem Lit.render_eq (l : Lit) :
    l.render = if l.positive then toString l.var.id else "-" ++ toString l.var.id := by
  rw [Lit.render, Int.toString_eq_repr, Int.repr_eq_if, Lit.toInt, Nat.toString_eq_repr]
  cases l.positive
  · have hneg : ¬ (0 : Int) ≤ -(l.var.id : Int) := by
      have := l.var.id_pos
      omega
    simp only [Bool.false_eq_true, if_false, if_neg hneg, Int.neg_neg, Int.toNat_natCast]
  · simp only [if_true, Int.natCast_nonneg, Int.toNat_natCast]

/-! ## The number of variables

A formula counts its variables as it is put together.  The raw form that is written counts them
once more, clause by clause and from zero, and has to come to the same number. -/

namespace Formula

theorem foldl_max_eq_or_mem (ls : List Lit) : ∀ n : Nat,
    ls.foldl (fun m l => max m l.var.id) n = n ∨
      ∃ l ∈ ls, l.var.id = ls.foldl (fun m l => max m l.var.id) n := by
  induction ls with
  | nil => exact fun n => .inl rfl
  | cons k ks ih =>
    intro n
    obtain h | ⟨l, hl, h⟩ := ih (max n k.var.id)
    · rcases Nat.le_total k.var.id n with hle | hle
      · exact .inl (h.trans (Nat.max_eq_left hle))
      · exact .inr ⟨k, List.mem_cons_self, (h.trans (Nat.max_eq_right hle)).symm⟩
    · exact .inr ⟨l, List.mem_cons_of_mem _ hl, h⟩

theorem reachAll_eq_or_mem (cs : List Clause) : ∀ n : Nat,
    reachAll n cs = n ∨ ∃ c ∈ cs, ∃ l ∈ c.lits, l.var.id = reachAll n cs := by
  induction cs with
  | nil => exact fun n => .inl rfl
  | cons d ds ih =>
    intro n
    obtain h | ⟨c, hc, l, hl, h⟩ := ih (reach n d)
    · obtain hn | ⟨l, hl, hd⟩ := foldl_max_eq_or_mem d.lits n
      · exact .inl (h.trans hn)
      · exact .inr ⟨d, List.mem_cons_self, l, hl, hd.trans h.symm⟩
    · exact .inr ⟨c, List.mem_cons_of_mem _ hc, l, hl, h⟩

/-- **The number of variables is the largest that is declared or used.** -/
theorem isGreatest_reachAll (n : Nat) (cs : List Clause) :
    IsGreatest {k | k = n ∨ ∃ c ∈ cs, ∃ l ∈ c.lits, l.var.id = k} (reachAll n cs) := by
  refine ⟨reachAll_eq_or_mem cs n, ?_⟩
  rintro k (rfl | ⟨c, hc, l, hl, rfl⟩)
  · exact (le_reachAll cs k).1
  · exact (le_reachAll cs n).2 c hc l hl

theorem reachAll_eq_self {n : Nat} {cs : List Clause} (h : ∀ c ∈ cs, ∀ l ∈ c.lits, l.var.id ≤ n) :
    reachAll n cs = n := by
  obtain hn | ⟨c, hc, l, hl, hid⟩ := reachAll_eq_or_mem cs n
  · exact hn
  · exact Nat.le_antisymm (hid ▸ h c hc l hl) (le_reachAll cs n).1

/-- A position asks for as many variables as the variable there. -/
theorem reach_map_raw (n : Nat) (c : Clause) :
    Dimacs.RawLit.reach n (c.lits.map Lit.raw) = reach n c := by
  rw [Dimacs.RawLit.reach, reach, List.foldl_map]
  refine congrArg (fun f => c.lits.foldl f n) (funext fun m => funext fun l => ?_)
  rw [l.var.id_eq_index_succ, Lit.raw]

/-- **The raw form of a formula has its variables and its clauses.** -/
theorem raw_eq (f : Formula) :
    f.raw = ⟨f.numVars, f.clauses.map fun c => c.lits.map Lit.raw⟩ := by
  rw [raw, Dimacs.RawFormula.ofClauses, List.foldl_map]
  simp only [reach_map_raw]
  exact congrArg (Dimacs.RawFormula.mk · _) (reachAll_eq_self f.declared)

end Formula

/-! ## The text that is written

The writer puts out bytes, and the lines above are strings.  All of it is ASCII, so a character
is as good as a byte and joining strings is joining lists of bytes. -/

namespace Dimacs

theorem ascii_append (s t : String) : ascii (s ++ t) = ascii s ++ ascii t := by
  rw [ascii, String.toList_append, List.map_append, ascii, ascii]

theorem ascii_join (ss : List String) : ascii (String.join ss) = ss.flatMap ascii := by
  rw [ascii, String.toList_join, List.map_flatMap]
  rfl

theorem digitByte_eq {d : Nat} (h : d < 10) : digitByte d = UInt8.ofNat d.digitChar.toNat := by
  rw [Nat.toNat_digitChar_of_lt_ten h, digitByte]

theorem natBytes_eq (n : Nat) : natBytes n = ascii (toString n) := by
  rw [ascii, ← map_digitChar_digits, List.map_map, natBytes]
  exact List.map_congr_left fun d hd => digitByte_eq (Decimal.digits_lt hd)

theorem litBytes_eq (l : Lit) : litBytes l.raw = ascii l.render := by
  rw [litBytes, l.render_eq, natBytes_eq, Lit.raw, ← l.var.id_eq_index_succ]
  cases l.positive
  · exact (ascii_append "-" _).symm
  · rfl

theorem clauseBytes_eq (c : Clause) : clauseBytes (c.lits.map Lit.raw) = ascii c.line := by
  have hlits : ((c.lits.map Lit.raw).flatMap fun l => litBytes l ++ [32]) =
      ascii (String.join (c.lits.map fun l => l.render ++ " ")) := by
    rw [ascii_join, List.flatMap_map, List.flatMap_map]
    refine congrArg (fun f => c.lits.flatMap f) (funext fun l => ?_)
    rw [ascii_append, litBytes_eq]
    rfl
  rw [clauseBytes, Clause.line, ascii_append, hlits]
  rfl

/-- **What is written**: the header line, and one line for each clause. -/
theorem toDimacs_eq (f : Formula) :
    f.toDimacs = ascii (f.headerLine ++ String.join (f.clauses.map Clause.line)) := by
  have hclauses : (f.clauses.map fun c => c.lits.map Lit.raw).flatMap clauseBytes =
      ascii (String.join (f.clauses.map Clause.line)) := by
    rw [ascii_join, List.flatMap_map, List.flatMap_map]
    exact congrArg (fun g => f.clauses.flatMap g) (funext clauseBytes_eq)
  rw [Formula.toDimacs, f.raw_eq, RawFormula.toDimacs, headerBytes, hclauses, natBytes_eq,
    natBytes_eq, List.length_map, Formula.headerLine]
  simp only [ascii_append]
  rfl

theorem textOfBytes_ascii {s : String} (h : IsAscii s) : textOfBytes (ascii s) = s := by
  rw [textOfBytes, ascii, List.map_map]
  refine Eq.trans (congrArg String.ofList ?_) String.ofList_toList
  refine (List.map_congr_left fun c hc => ?_).trans (List.map_id _)
  exact (congrArg Char.ofNat (toNat_ofNat_toNat (h c hc))).trans (Char.ofNat_toNat c)

theorem isAscii_render (l : Lit) : IsAscii l.render := by
  rw [l.render_eq]
  cases l.positive
  · exact isAscii_append_iff.2 ⟨by decide, isAscii_toString _⟩
  · exact isAscii_toString _

theorem isAscii_line (c : Clause) : IsAscii c.line := by
  refine isAscii_append_iff.2 ⟨isAscii_join_iff.2 (List.forall_mem_map.2 fun l _ => ?_), ?_⟩
  · exact isAscii_append_iff.2 ⟨isAscii_render l, by decide⟩
  · decide

/-- The words of a header. -/
def headerWords (numVars numClauses : Nat) : String :=
  "p cnf " ++ toString numVars ++ " " ++ toString numClauses

theorem isAscii_headerWords (v c : Nat) : IsAscii (headerWords v c) := by
  rw [headerWords]
  simp only [isAscii_append_iff]
  exact ⟨⟨⟨by decide, isAscii_toString v⟩, by decide⟩, isAscii_toString c⟩

end Dimacs

/-- **The text of a formula**: the header line, and one line for each clause. -/
theorem Formula.dimacsText_eq (f : Formula) :
    f.dimacsText = f.headerLine ++ String.join (f.clauses.map Clause.line) := by
  rw [Formula.dimacsText, Dimacs.toDimacs_eq]
  refine Dimacs.textOfBytes_ascii (isAscii_append_iff.2 ⟨?_, isAscii_join_iff.2 ?_⟩)
  · exact isAscii_append_iff.2 ⟨Dimacs.isAscii_headerWords _ _, by decide⟩
  · exact List.forall_mem_map.2 fun c _ => Dimacs.isAscii_line c

namespace Dimacs

/-! ## Reading several bytes

The text is followed through the reader piece by piece.  Each lemma takes a reader that stands
where the piece may begin and says, for any such reader, how it stands when the piece has been
read; the next piece starts from there. -/

namespace Reading

/-- The bytes in order. -/
def run (r : Reading) (bytes : List UInt8) : Except Fault Reading := bytes.foldlM step r

variable {r r' : Reading} {b : UInt8}

theorem run_cons (h : r.step b = .ok r') (bs : List UInt8) : r.run (b :: bs) = r'.run bs := by
  rw [run, List.foldlM_cons, h]
  rfl

theorem run_append {bs : List UInt8} (h : r.run bs = .ok r') (bs' : List UInt8) :
    r.run (bs ++ bs') = r'.run bs' := by
  rw [run] at h
  rw [run, List.foldlM_append, h]
  rfl

theorem run_singleton (h : r.step b = .ok r') : r.run [b] = .ok r' := run_cons h []

theorem step_of_ne (h : b ≠ 10) : r.step b = r.advance b := by rw [step, if_neg h]

/-! ### Numbers -/

/-- A digit here is the first of a literal with the given sign. -/
inductive Opens (r : Reading) : Bool → Prop
  | lineStart (h : r.mode = .lineStart) : Opens r false
  | blank (h : r.mode = .blank) : Opens r false
  | sign (h : r.mode = .sign) : Opens r true

/-- What the reader goes by when it meets a digit. -/
theorem digitByte_facts {d : Nat} (h : d < 10) : isDigit (digitByte d) = true ∧
    isLineEnd (digitByte d) = false ∧ digitByte d ≠ 32 ∧ digitByte d ≠ 45 ∧
      digitByte d ≠ 10 ∧ (digitByte d).toNat - 48 = d := by
  revert h d
  decide

theorem step_digitByte_of_opens {negative : Bool} (h : Opens r negative) {d : Nat} (hd : d < 10) :
    r.step (digitByte d) = r.digit negative 0 (digitByte d) := by
  obtain ⟨hdigit, hend, hblank, hminus, hfeed, -⟩ := digitByte_facts hd
  rw [step_of_ne hfeed, advance]
  cases h with
  | lineStart h => simp [h, between, hdigit, hend, hblank, hminus]
  | blank h => simp [h, between, hdigit, hend, hblank, hminus]
  | sign h => simp [h, hdigit]

theorem digit_digitByte {negative : Bool} {value d : Nat} (hd : d < 10)
    (h : 10 * value + d < maxVar + 1) : r.digit negative value (digitByte d) =
      .ok { r with mode := .literal negative ⟨10 * value + d, h⟩ } := by
  obtain ⟨-, -, -, -, -, hvalue⟩ := digitByte_facts hd
  simp only [digit, hvalue, dif_pos h]

/-- **A number leaves the reader inside a literal of its value.** -/
theorem run_natBytes {negative : Bool} (h : Opens r negative) {n : Nat} (hn : n < maxVar + 1) :
    r.run (natBytes n) = .ok { r with mode := .literal negative ⟨n, hn⟩ } := by
  rw [natBytes]
  -- The value under way is that of the digits so far, so the last digit comes off first.
  fun_induction Decimal.digits n with
  | case1 n hlt =>
    have hvalue : 10 * 0 + n < maxVar + 1 := by omega
    refine run_singleton ?_
    rw [step_digitByte_of_opens h hlt, digit_digitByte hlt hvalue]
    simp only [Nat.mul_zero, Nat.zero_add]
  | case2 n hge ih =>
    have hd : n % 10 < 10 := Nat.mod_lt n (by decide)
    have hvalue : 10 * (n / 10) + n % 10 < maxVar + 1 := by rwa [Nat.div_add_mod]
    obtain ⟨hdigit, -, -, -, hfeed, -⟩ := digitByte_facts hd
    rw [List.map_append, run_append (ih (by omega))]
    refine run_singleton ?_
    rw [step_of_ne hfeed, advance]
    simp only [hdigit, if_true]
    rw [digit_digitByte hd hvalue]
    simp only [Nat.div_add_mod]

/-! ### Literals and clauses -/

/-- The reader stands between literals. -/
def Between (r : Reading) : Prop := r.mode = .lineStart ∨ r.mode = .blank

theorem Between.opens (h : r.Between) : Opens r false := by
  rcases h with h | h
  · exact .lineStart h
  · exact .blank h

theorem step_minus (h : r.Between) : r.step 45 = .ok { r with mode := .sign } := by
  rw [step_of_ne (by decide), advance]
  rcases h with h | h <;> rw [h] <;> rfl

theorem closeLiteral_var {l : Lit} (hl : l.var.id < maxVar + 1) :
    r.closeLiteral (!l.positive) ⟨l.var.id, hl⟩ = { r with pending := l :: r.pending } := by
  rw [closeLiteral, dif_neg (Nat.ne_of_gt l.var.id_pos)]
  simp only [Bool.not_not]

/-- **A literal and a blank add to the clause under way.** -/
theorem run_litBytes (h : r.Between) {l : Lit} (hl : l.var.id < maxVar + 1) :
    r.run (litBytes l.raw ++ [32]) = .ok { r with mode := .blank, pending := l :: r.pending } := by
  have hnumber : r.run (litBytes l.raw) =
      .ok { r with mode := .literal (!l.positive) ⟨l.var.id, hl⟩ } := by
    rw [litBytes, Lit.raw, ← l.var.id_eq_index_succ]
    cases l.positive
    · exact (run_cons (step_minus h) _).trans (run_natBytes (.sign rfl) hl)
    · exact run_natBytes h.opens hl
  rw [run_append hnumber]
  refine run_singleton ?_
  rw [step_of_ne (by decide)]
  show Except.ok { closeLiteral _ _ _ with mode := .blank } = _
  rw [closeLiteral_var]

theorem step_zero (h : r.Between) : r.step 48 = .ok { r with mode := .literal false 0 } := by
  have hstep := step_digitByte_of_opens h.opens (show 0 < 10 by decide)
  rw [digit_digitByte (by decide) (by decide)] at hstep
  exact hstep

theorem run_lits {ls : List Lit} (hls : ∀ l ∈ ls, l.var.id < maxVar + 1) : ∀ {r : Reading},
    r.Between → ∃ mode, (mode = .lineStart ∨ mode = .blank) ∧
      r.run ((ls.map Lit.raw).flatMap fun l => litBytes l ++ [32]) =
        .ok { r with mode := mode, pending := ls.reverse ++ r.pending } := by
  induction ls with
  | nil => exact fun {r} h => ⟨r.mode, h, rfl⟩
  | cons l ls ih =>
    obtain ⟨hl, hls⟩ := List.forall_mem_cons.1 hls
    intro r h
    obtain ⟨mode, hmode, hrun⟩ :=
      @ih hls { r with mode := .blank, pending := l :: r.pending } (.inr rfl)
    refine ⟨mode, hmode, ?_⟩
    rw [List.map_cons, List.flatMap_cons, run_append (run_litBytes h hl), hrun, List.reverse_cons,
      List.append_assoc, List.singleton_append]

/-- **A clause with its closing zero is added to those before it**, and a line is over. -/
theorem run_clauseBytes (h : r.mode = .lineStart) (hpending : r.pending = []) {c : Clause}
    (hc : ∀ l ∈ c.lits, l.var.id < maxVar + 1) :
    r.run (clauseBytes (c.lits.map Lit.raw)) =
      .ok { r with line := r.line + 1, closed := c :: r.closed } := by
  obtain ⟨mode, hmode, hrun⟩ := run_lits hc (.inl h)
  have hbetween : Between { r with mode := mode, pending := c.lits.reverse ++ r.pending } := hmode
  rw [clauseBytes, run_append hrun, run_cons (step_zero hbetween)]
  refine run_singleton ?_
  show Except.ok { closeLiteral _ false 0 with mode := .lineStart } = _
  simp [closeLiteral, h, hpending]

theorem run_clauses {cs : List Clause} (hcs : ∀ c ∈ cs, ∀ l ∈ c.lits, l.var.id < maxVar + 1) :
    ∀ {r : Reading}, r.mode = .lineStart → r.pending = [] →
      r.run ((cs.map fun c => c.lits.map Lit.raw).flatMap clauseBytes) =
        .ok { r with line := r.line + cs.length, closed := cs.reverse ++ r.closed } := by
  induction cs with
  | nil => exact fun {r} _ _ => rfl
  | cons c cs ih =>
    obtain ⟨hc, hcs⟩ := List.forall_mem_cons.1 hcs
    intro r hmode hpending
    rw [List.map_cons, List.flatMap_cons, run_append (run_clauseBytes hmode hpending hc),
      @ih hcs { r with line := r.line + 1, closed := c :: r.closed } hmode hpending]
    simp only [List.reverse_cons, List.append_assoc, List.singleton_append, List.length_cons,
      Nat.add_assoc, Nat.add_comm 1]

/-! ### The header -/

/-- The bytes of a header are gathered up to the end of its line. -/
theorem run_of_header {bs : List UInt8} (hbs : ∀ b ∈ bs, isLineEnd b = false) :
    ∀ {r : Reading} {done : List UInt8}, r.mode = .header done →
      r.run bs = .ok { r with mode := .header (bs.reverse ++ done) } := by
  induction bs with
  | nil =>
    intro r done h
    rw [List.reverse_nil, List.nil_append, ← h]
    rfl
  | cons b bs ih =>
    obtain ⟨hb, hbs⟩ := List.forall_mem_cons.1 hbs
    intro r done h
    have hstep : r.step b = .ok { r with mode := .header (b :: done) } := by
      have hne : b ≠ 10 := by
        rintro rfl
        cases hb
      rw [step_of_ne hne, advance, h]
      simp only [hb, Bool.false_eq_true, if_false]
    rw [run_cons hstep, ih hbs rfl, List.reverse_cons, List.append_assoc, List.singleton_append]

end Reading

theorem toList_headerWords (v c : Nat) : (headerWords v c).toList =
    'p' :: ' ' :: (['c', 'n', 'f'] ++ ' ' ::
      ((toString v).toList ++ ' ' :: (toString c).toList)) := by
  simp [headerWords]

theorem words_header (v c : Nat) :
    words (String.ofList (['c', 'n', 'f'] ++ ' ' ::
      ((toString v).toList ++ ' ' :: (toString c).toList))) = ["cnf", toString v, toString c] := by
  have hword : ∀ n : Nat, ∀ c ∈ (toString n).toList, isBlank c = false := fun n c hc =>
    isBlank_of_isDigit (isDigit_of_mem_toString hc)
  have hcnf : ∀ c ∈ ['c', 'n', 'f'], isBlank c = false := by simp [isBlank, blankRanges]
  rw [words, String.toList_ofList, wordsFrom_append_blank hcnf (by decide) (by decide),
    wordsFrom_append_blank (hword v) (toList_toString_ne_nil v) (by decide),
    wordsFrom_self (hword c) (toList_toString_ne_nil c)]
  simp only [List.map_cons, List.map_nil, String.ofList_toList]

/-- **The words of a header are read back.** -/
theorem read_headerWords {v c : Nat} (hv : v ≤ maxVar) (hc : c < UInt64.size) (line : Nat) :
    Header.read line (ascii (headerWords v c)) = .ok ⟨v, c, hv⟩ := by
  have hv' : v < UInt64.size := Nat.lt_of_le_of_lt hv (by decide)
  rw [Header.read, ascii, Utf8.decodeLossy_map_ofNat (isAscii_headerWords v c)]
  simp only [toList_headerWords, words_header, readBelow?_toString hv', readBelow?_toString hc,
    dif_pos hv]

namespace Reading

/-- **The header line is read.** -/
theorem run_headerBytes {v c : Nat} (hv : v ≤ maxVar) (hc : c < UInt64.size) :
    start.run (headerBytes v c) = .ok ⟨2, .lineStart, [], [], some ⟨v, c, hv⟩⟩ := by
  have hwords : ascii "p cnf " ++ natBytes v ++ [32] ++ natBytes c = ascii (headerWords v c) := by
    rw [headerWords, natBytes_eq, natBytes_eq]
    simp only [ascii_append]
    rfl
  have hinside : ∀ b ∈ ascii " cnf " ++ natBytes v ++ [32] ++ natBytes c, isLineEnd b = false := by
    have hnumber : ∀ n, ∀ b ∈ natBytes n, isLineEnd b = false := fun n => by
      rw [natBytes, List.forall_mem_map]
      exact fun d hd => (digitByte_facts (Decimal.digits_lt hd)).2.1
    have hcnf : ∀ b ∈ ascii " cnf ", isLineEnd b = false :=
      List.forall_mem_map.2 (by simp [isLineEnd])
    simp only [List.forall_mem_append, List.forall_mem_singleton]
    exact ⟨⟨⟨hcnf, hnumber v⟩, rfl⟩, hnumber c⟩
  have hgather := run_of_header hinside (r := { start with mode := .header [112] }) rfl
  have hfirst : start.step 112 = .ok { start with mode := .header [112] } := rfl
  show start.run (112 :: (ascii " cnf " ++ natBytes v ++ [32] ++ natBytes c ++ [10])) = _
  rw [run_cons hfirst, run_append hgather]
  refine run_singleton ?_
  show (closeHeader _ _).map _ = _
  have hline : ((ascii " cnf " ++ natBytes v ++ [32] ++ natBytes c).reverse ++ [112]).reverse =
      ascii (headerWords v c) := by
    rw [List.reverse_append, List.reverse_reverse]
    exact hwords
  rw [closeHeader, hline, read_headerWords hv hc]
  rfl

end Reading

/-! ## The whole text

After every line the reader stands at the start of another one with no clause under way.  So the
last line may be the end of the text, and the clauses gathered are the formula. -/

/-- **A formula is read back from its text**, if its numbers can be written there. -/
theorem read_toDimacs {f : Formula} (hvars : f.numVars ≤ maxVar)
    (hclauses : f.clauses.length < UInt64.size) : read f.toDimacs = .ok f := by
  have hlits : ∀ c ∈ f.clauses, ∀ l ∈ c.lits, l.var.id < maxVar + 1 := fun c hc l hl =>
    Nat.lt_succ_of_le (Nat.le_trans (f.declared c hc l hl) hvars)
  have hrun : Reading.start.run f.toDimacs = .ok ⟨2 + f.clauses.length, .lineStart, [],
      f.clauses.reverse, some ⟨f.numVars, f.clauses.length, hvars⟩⟩ := by
    rw [Formula.toDimacs, f.raw_eq, RawFormula.toDimacs, List.length_map,
      Reading.run_append (Reading.run_headerBytes hvars hclauses),
      Reading.run_clauses hlits rfl rfl, List.append_nil]
  have hformula : Formula.ofClauses f.numVars f.clauses = f :=
    Formula.ext (Formula.reachAll_eq_self f.declared) rfl
  rw [Reading.run] at hrun
  simp [read, hrun, Reading.finish, Reading.formula, hformula]

end Dimacs

/-- **Formulas survive being written and read.**  A formula is made from a declared number of
variables by adding clauses, fewer than a header can count.  Its number of variables is the largest
that is declared or used, its text declares this and the number of clauses and then lists the
clauses in order, and reading the text gives back the formula. -/
theorem Formula.dimacs_roundtrip {n : Nat} {cs : List Clause} (hn : n ≤ Dimacs.maxVar)
    (hlits : ∀ c ∈ cs, ∀ l ∈ c.lits, l.var.id ≤ Dimacs.maxVar) (hcs : cs.length < UInt64.size) :
    let f := cs.foldl Formula.add (Formula.declaring n)
    IsGreatest {k | k = n ∨ ∃ c ∈ cs, ∃ l ∈ c.lits, l.var.id = k} f.numVars ∧
      f.clauses = cs ∧
      f.dimacsText = "p cnf " ++ toString f.numVars ++ " " ++ toString cs.length ++ "\n" ++
        String.join (cs.map Clause.line) ∧
      f.toDimacs = Dimacs.ascii f.dimacsText ∧
      Dimacs.read f.toDimacs = .ok f := by
  intro f
  have hf : f = ofClauses n cs := foldl_add_eq_ofClauses n cs
  have hclauses : f.clauses = cs := by rw [hf]; rfl
  have hgreatest : IsGreatest {k | k = n ∨ ∃ c ∈ cs, ∃ l ∈ c.lits, l.var.id = k} f.numVars := by
    rw [hf]
    exact isGreatest_reachAll n cs
  have hvars : f.numVars ≤ Dimacs.maxVar := by
    obtain hk | ⟨c, hc, l, hl, hk⟩ := hgreatest.1
    · rw [hk]
      exact hn
    · rw [← hk]
      exact hlits c hc l hl
  refine ⟨hgreatest, hclauses, ?_, ?_, Dimacs.read_toDimacs hvars (by rwa [hclauses])⟩
  · rw [f.dimacsText_eq, headerLine, hclauses]
  · rw [f.dimacsText_eq, Dimacs.toDimacs_eq]

/-- Four variables are declared, and one is used that is the largest there is; a clause is empty,
and another one has a literal twice and is added twice. -/
theorem Formula.dimacs_roundtrip_corners :
    let largest : Var := ⟨Dimacs.maxVar, by decide, by decide⟩
    let twice : Clause := ⟨[⟨largest, false⟩, ⟨largest, false⟩, ⟨⟨3, by decide, by decide⟩, true⟩]⟩
    let f := [⟨[]⟩, twice, twice].foldl Formula.add (Formula.declaring 4)
    f.dimacsText = "p cnf 268435456 3\n0\n" ++ "-268435456 -268435456 3 0\n" ++
        "-268435456 -268435456 3 0\n" ∧
      Dimacs.read f.toDimacs = .ok f := by
  intro largest twice f
  have hlits : ∀ c ∈ [⟨[]⟩, twice, twice], ∀ l ∈ c.lits, l.var.id ≤ Dimacs.maxVar := by decide
  obtain ⟨-, -, htext, -, hread⟩ :=
    @Formula.dimacs_roundtrip 4 [⟨[]⟩, twice, twice] (by decide) hlits (by decide)
  exact ⟨htext.trans (by decide), hread⟩

end SnapshotPlan
