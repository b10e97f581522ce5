import Mathlib.Data.List.Induction
import Mathlib.Tactic.SplitIfs
import SnapshotPlan.Proofs.Dimacs.RoundTrip

/-!
# What one byte does to the reader

A byte that is not refused does one of few things, whatever came before it.  All that is true of a
text that is read follows from these, by induction on the bytes; and the end of the text does the
same as one more line end.

## What is here

* `Reading.Steps` — the things that a byte may do.  `steps_of_step`: there are no others.
* `Reading.induction_of_read` — **what holds at the start and is kept by every byte holds when a
  text has been read.**
* `Reading.Bounded` — the literals read so far are within the bounds, and the clauses are not more
  than half of the bytes.
-/

set_option autoImplicit false

namespace SnapshotPlan.Dimacs

/-- The reader is in the middle of a line that is not a header. -/
inductive Mode.Running : Mode → Prop
  | blank : Running .blank
  | sign : Running .sign
  | literal (negative : Bool) (value : Fin (maxVar + 1)) : Running (.literal negative value)
  | comment : Running .comment

/-- How many bytes of a literal under way count towards the end of its clause. -/
def Mode.owed : Mode → Nat
  | .literal .. => 1
  | _ => 0

theorem Mode.owed_le (m : Mode) : m.owed ≤ 1 := by
  cases m with
  | literal => exact Nat.le_refl 1
  | _ => exact Nat.zero_le 1

namespace Reading

/-! ## Steps

The reader distinguishes a good many bytes in a good many modes.  Most of that is about what is
refused; what is left once a byte has been accepted are the seven cases of `Steps`. -/

/-- The byte `b` takes the reader on.  Nothing is said of the number of the line. -/
inductive Steps (r : Reading) (b : UInt8) : Reading → Prop
  /-- A line ends, and neither a literal nor a header with it. -/
  | lineEnds (line : Nat) (hb : isLineEnd b = true) (hm : r.mode = .lineStart ∨ r.mode.Running) :
      Steps r b { r with line := line, mode := .lineStart }
  /-- A line begins that is not a header. -/
  | lineBegins (line : Nat) {mode : Mode} (hb : isLineEnd b = false) (hplain : b < 128 ∧ b ≠ 112)
      (hm : r.mode = .lineStart) (hm' : mode.Running) :
      Steps r b { r with line := line, mode := mode }
  /-- A line goes on that is not a header. -/
  | lineGoesOn (line : Nat) {mode : Mode} (hb : isLineEnd b = false) (hm : r.mode.Running)
      (hm' : mode.Running) : Steps r b { r with line := line, mode := mode }
  /-- A literal ends at a blank or with its line. -/
  | literalEnds (line : Nat) {mode : Mode} {negative : Bool} {value : Fin (maxVar + 1)}
      (hm : r.mode = .literal negative value)
      (hb : isLineEnd b = true ∧ mode = .lineStart ∨ isLineEnd b = false ∧ mode = .blank) :
      Steps r b { r.closeLiteral negative value with line := line, mode := mode }
  | headerBegins (line : Nat) (hb : b = 112) (hm : r.mode = .lineStart) (hnone : r.header = none) :
      Steps r b { r with line := line, mode := .header [b] }
  | headerGoesOn (line : Nat) {bytes : List UInt8} (hb : isLineEnd b = false)
      (hm : r.mode = .header bytes) :
      Steps r b { r with line := line, mode := .header (b :: bytes) }
  /-- A header ends with its line, and it declares something. -/
  | headerEnds (line : Nat) {n : Nat} {bytes : List UInt8} {header : Header}
      (hb : isLineEnd b = true) (hm : r.mode = .header bytes)
      (hread : Header.read n bytes.reverse = .ok header) :
      Steps r b { r with line := line, mode := .lineStart, header := some header }

variable {r r' : Reading} {b : UInt8}

/-- A plain byte begins a line or goes on with one. -/
theorem steps_of_running {line : Nat} {mode : Mode} (hb : isLineEnd b = false)
    (hplain : b < 128 ∧ b ≠ 112) (hm : r.mode = .lineStart ∨ r.mode.Running)
    (hm' : mode.Running) : Steps r b { r with line := line, mode := mode } := by
  rcases hm with hm | hm
  · exact .lineBegins line hb hplain hm hm'
  · exact .lineGoesOn line hb hm hm'

theorem exists_of_isDigit (h : isDigit b = true) : ∃ d < 10, b = digitByte d := by
  simp only [isDigit, Bool.and_eq_true, decide_eq_true_eq, UInt8.le_iff_toNat_le,
    UInt8.reduceToNat] at h
  refine ⟨b.toNat - 48, by omega, ?_⟩
  rw [digitByte, Nat.add_sub_cancel' h.1, UInt8.ofNat_toNat]

theorem plain_of_isDigit (h : isDigit b = true) : isLineEnd b = false ∧ b < 128 ∧ b ≠ 112 := by
  obtain ⟨d, hd, rfl⟩ := exists_of_isDigit h
  clear h
  revert hd d
  decide

theorem steps_of_digit {line value : Nat} {negative : Bool} (hb : isDigit b = true)
    (hm : r.mode = .lineStart ∨ r.mode.Running)
    (h : digit { r with line := line } negative value b = .ok r') : Steps r b r' := by
  obtain ⟨hend, hplain⟩ := plain_of_isDigit hb
  rw [digit] at h
  split at h
  · cases h
    exact steps_of_running hend hplain hm (.literal _ _)
  · cases h

/-- Between literals, where `fresh` says that the line begins here. -/
theorem steps_of_between {line : Nat} {fresh : Bool}
    (hm : fresh = true ∧ r.mode = .lineStart ∨ fresh = false ∧ r.mode = .blank)
    (h : between { r with line := line } fresh b = .ok r') : Steps r b r' := by
  have hidle : r.mode = .lineStart ∨ r.mode.Running :=
    hm.imp And.right fun hblank => by rw [hblank.2]; exact .blank
  rw [between] at h
  split_ifs at h with hend h32 h45 hdigit h99 h112
  · cases h
    exact .lineEnds line hend hidle
  · cases h
    rw [h32]
    exact steps_of_running rfl (by decide) hidle .blank
  · cases h
    rw [h45]
    exact steps_of_running rfl (by decide) hidle .sign
  · exact steps_of_digit hdigit hidle h
  · cases h
    simp only [Bool.and_eq_true, beq_iff_eq] at h99
    rw [h99.2]
    exact steps_of_running rfl (by decide) hidle .comment
  · cases h
    simp only [Bool.and_eq_true, beq_iff_eq, Option.isNone_iff_eq_none] at h112
    obtain ⟨-, hstart⟩ | ⟨hblank, -⟩ := hm
    · exact .headerBegins line h112.1.2 hstart h112.2
    · rw [h112.1.1] at hblank
      cases hblank

/-- A literal that ends does not mind the number of the line. -/
theorem closeLiteral_line (r : Reading) (line : Nat) (mode : Mode) (negative : Bool)
    (value : Fin (maxVar + 1)) :
    { closeLiteral { r with line := line } negative value with mode := mode } =
      { r.closeLiteral negative value with line := line, mode := mode } := by
  simp only [closeLiteral]
  split <;> rfl

/-- **Every byte that is not refused takes one of the steps.** -/
theorem steps_of_step (h : r.step b = .ok r') : Steps r b r' := by
  obtain ⟨line, h⟩ : ∃ line, advance { r with line := line } b = .ok r' := by
    rw [step] at h
    split at h
    · exact ⟨_, h⟩
    · exact ⟨r.line, h⟩
  rcases r with ⟨l, mode, pending, closed, header⟩
  cases mode with
  | lineStart => exact steps_of_between (.inl ⟨rfl, rfl⟩) h
  | blank => exact steps_of_between (.inr ⟨rfl, rfl⟩) h
  | sign =>
    simp only [advance] at h
    split_ifs at h with hdigit
    exact steps_of_digit hdigit (.inr .sign) h
  | literal negative value =>
    have hclose := fun mode' => (closeLiteral_line
      ⟨l, .literal negative value, pending, closed, header⟩ line mode' negative value).symm
    simp only [advance] at h
    split_ifs at h with hdigit hend h32
    · exact steps_of_digit hdigit (.inr (.literal _ _)) h
    · obtain rfl := (hclose .lineStart).trans (Except.ok.inj h)
      exact .literalEnds line rfl (.inl ⟨hend, rfl⟩)
    · obtain rfl := (hclose .blank).trans (Except.ok.inj h)
      exact .literalEnds line rfl (.inr ⟨eq_false_of_ne_true hend, rfl⟩)
  | comment =>
    simp only [advance] at h
    split_ifs at h with hend
    · cases h
      exact .lineEnds line hend (.inr .comment)
    · cases h
      exact .lineGoesOn line (eq_false_of_ne_true hend) .comment .comment
  | header bytes =>
    simp only [advance] at h
    split_ifs at h with hend
    · rcases hread : Header.read line bytes.reverse with fault | header
      · simp only [closeHeader, hread] at h
        cases h
      · simp only [closeHeader, hread] at h
        cases h
        exact .headerEnds line hend rfl hread
    · cases h
      exact .headerGoesOn line (eq_false_of_ne_true hend) rfl

/-! ## Whole texts -/

variable {f : Formula} {bytes : List UInt8}

/-- **The end of the text does what a line end does.**  It does so even after a minus sign, where a
line end is refused. -/
theorem steps_of_finish (h : r.finish = .ok f) :
    ∃ r', Steps r 10 r' ∧ r'.formula = .ok f := by
  have hend : isLineEnd 10 = true := rfl
  have hclosed : ∀ {r₁ : Reading}, (if r₁.pending.isEmpty then r₁.formula else
      .error (.unterminatedClause r₁.line)) = .ok f → r₁.formula = .ok f := by
    intro r₁ h
    split_ifs at h
    exact h
  rcases r with ⟨line, mode, pending, closed, header⟩
  cases mode with
  | lineStart => exact ⟨_, .lineEnds line hend (.inl rfl), hclosed h⟩
  | blank => exact ⟨_, .lineEnds line hend (.inr .blank), hclosed h⟩
  | sign => exact ⟨_, .lineEnds line hend (.inr .sign), hclosed h⟩
  | literal negative value =>
    exact ⟨_, .literalEnds line rfl (.inl ⟨hend, rfl⟩),
      @hclosed (closeLiteral ⟨line, .literal negative value, pending, closed, header⟩ _ _) h⟩
  | comment => exact ⟨_, .lineEnds line hend (.inr .comment), hclosed h⟩
  | header bytes =>
    rcases hread : Header.read line bytes.reverse with fault | header
    · simp only [finish, closeHeader, hread] at h
      cases h
    · simp only [finish, closeHeader, hread] at h
      exact ⟨_, .headerEnds line hend rfl hread, hclosed h⟩

/-- What holds at the start and is kept by every step holds after several bytes. -/
theorem induction_of_run {P : List UInt8 → Reading → Prop} (hstart : P [] start)
    (hsteps : ∀ {bs r b r'}, P bs r → Steps r b r' → P (bs ++ [b]) r') :
    ∀ {r}, start.run bytes = .ok r → P bytes r := by
  induction bytes using List.reverseRecOn with
  | nil =>
    intro r h
    cases h
    exact hstart
  | append_singleton bs b ih =>
    intro r h
    rcases hbs : start.run bs with fault | r₁
    · rw [run, List.foldlM_append, ← run, hbs] at h
      cases h
    · rw [run_append hbs] at h
      rcases hb : r₁.step b with fault | r₂
      · rw [run, List.foldlM_cons, hb] at h
        cases h
      · rw [run_cons hb] at h
        cases h
        exact hsteps (ih hbs) (steps_of_step hb)

/-- **What holds at the start and is kept by every step holds of a text that is read**, and it holds
at the end of its last line. -/
theorem induction_of_read {P : List UInt8 → Reading → Prop} (hstart : P [] start)
    (hsteps : ∀ {bs r b r'}, P bs r → Steps r b r' → P (bs ++ [b]) r')
    (h : read bytes = .ok f) : ∃ r, P (bytes ++ [10]) r ∧ r.formula = .ok f := by
  rcases hrun : start.run bytes with fault | r
  · rw [read, ← run, hrun] at h
    cases h
  · rw [read, ← run, hrun] at h
    obtain ⟨r', hsteps', hformula⟩ := steps_of_finish h
    exact ⟨r', hsteps (induction_of_run hstart hsteps hrun) hsteps', hformula⟩

/-! ## Bounds

A literal is within bounds when it is closed, since its value has a type that says so.  The clauses
are counted against the bytes, and as a literal under way may be the zero that ends a clause, one
byte of it is set aside. -/

/-- No literal is beyond the largest variable, and a finished clause takes two bytes at least: a
zero, and what ends it. -/
structure Bounded (bytes : List UInt8) (r : Reading) : Prop where
  pending_le : ∀ l ∈ r.pending, l.var.id ≤ maxVar
  closed_le : ∀ c ∈ r.closed, ∀ l ∈ c.lits, l.var.id ≤ maxVar
  length_le : 2 * r.closed.length + r.mode.owed ≤ bytes.length

theorem bounded_start : Bounded [] start := ⟨nofun, nofun, Nat.le_refl 0⟩

/-- A step that touches neither literals nor clauses. -/
theorem Bounded.same (h : Bounded bytes r) (hpending : r'.pending = r.pending)
    (hclosed : r'.closed = r.closed) : Bounded (bytes ++ [b]) r' where
  pending_le := hpending ▸ h.pending_le
  closed_le := hclosed ▸ h.closed_le
  length_le := by
    have hlen := h.length_le
    have howed := r'.mode.owed_le
    rw [hclosed, List.length_append, List.length_singleton]
    omega

/-- A literal that ends is one more of the clause under way, or ends it. -/
theorem Bounded.literalEnds (h : Bounded bytes r) {negative : Bool} {value : Fin (maxVar + 1)}
    (hm : r.mode = .literal negative value) {line : Nat} {mode : Mode} (howed : mode.owed = 0) :
    Bounded (bytes ++ [b]) { r.closeLiteral negative value with line := line, mode := mode } := by
  have hlen := h.length_le
  rw [hm, show (Mode.literal negative value).owed = 1 from rfl] at hlen
  rw [closeLiteral]
  split
  · refine ⟨List.forall_mem_nil _, List.forall_mem_cons.2 ⟨?_, h.closed_le⟩, ?_⟩
    · exact fun l hl => h.pending_le l (List.mem_reverse.1 hl)
    · simp only [List.length_cons, List.length_append, List.length_nil, howed]
      omega
  · refine ⟨List.forall_mem_cons.2 ⟨Nat.le_of_lt_succ value.isLt, h.pending_le⟩, h.closed_le, ?_⟩
    simp only [List.length_append, List.length_singleton, howed]
    omega

/-- **Every step keeps to the bounds.** -/
theorem Bounded.steps (h : Bounded bytes r) (hsteps : Steps r b r') :
    Bounded (bytes ++ [b]) r' := by
  cases hsteps with
  | literalEnds _ hm hb =>
    refine h.literalEnds hm ?_
    obtain ⟨-, rfl⟩ | ⟨-, rfl⟩ := hb <;> rfl
  | lineEnds | lineBegins | lineGoesOn | headerBegins | headerGoesOn | headerEnds =>
    exact h.same rfl rfl

end Reading
end SnapshotPlan.Dimacs
