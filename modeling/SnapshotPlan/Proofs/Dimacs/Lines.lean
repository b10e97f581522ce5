import SnapshotPlan.Proofs.Dimacs.Steps

/-!
# Headers as lines of a text

Where a text has a header can be said without the reader: it is a line, between line ends, that
reads `p cnf` and two numbers.  The reader finds exactly that.

## What is here

* `lines` — the lines of a text.
* `HeaderLine`, `Declares` — a line, and a text, that declares so many variables and clauses.
* `Reading.Follows` — what the reader knows of the lines before it and of its own.
* `Reading.exists_of_read` — **the header that was found is the one of the text.**
-/

set_option autoImplicit false

namespace SnapshotPlan.Dimacs

open Text Reading

variable {b : UInt8} {bytes : List UInt8}

/-! ## Lines -/

/-- The lines of a text, without what ends them.  After the last line end there is one more, which
may be empty. -/
def lines (bytes : List UInt8) : List (List UInt8) := bytes.splitOnP isLineEnd

theorem lines_concat_of_isLineEnd (h : isLineEnd b = true) :
    lines (bytes ++ [b]) = lines bytes ++ [[]] := by
  rw [lines, List.splitOnP_append_cons _ _ h, List.splitOnP_nil, lines]

/-- A byte that ends no line is added to the last one. -/
theorem exists_lines_concat (bytes : List UInt8) (h : isLineEnd b = false) : ∃ before last,
    lines bytes = before ++ [last] ∧ lines (bytes ++ [b]) = before ++ [last ++ [b]] := by
  induction bytes with
  | nil => exact ⟨[], [], rfl, by simp [lines, List.splitOnP_cons_eq_if_modifyHead, h]⟩
  | cons x xs ih =>
    obtain ⟨before, last, hxs, hxsb⟩ := ih
    rw [lines] at hxs hxsb
    rw [lines, lines, List.cons_append, List.splitOnP_cons_eq_if_modifyHead,
      List.splitOnP_cons_eq_if_modifyHead, hxs, hxsb]
    split
    · exact ⟨[] :: before, last, rfl, rfl⟩
    · cases before with
      | nil => exact ⟨[], x :: last, rfl, rfl⟩
      | cons line before => exact ⟨(x :: line) :: before, last, rfl, rfl⟩

theorem lines_concat {before : List (List UInt8)} {last : List UInt8} (h : isLineEnd b = false)
    (hbytes : lines bytes = before ++ [last]) :
    lines (bytes ++ [b]) = before ++ [last ++ [b]] := by
  obtain ⟨before', last', hbytes', hconcat⟩ := exists_lines_concat bytes h
  obtain ⟨rfl, hlast⟩ := List.append_inj' (hbytes.symm.trans hbytes') rfl
  obtain rfl := List.singleton_inj.1 hlast
  exact hconcat

/-! ## Headers

A line that begins with a byte other than `p`, and one that is empty, is no header.  The reader
tells the two sorts apart at the first byte, and the lemmas here say that this is enough. -/

/-- As text, the line is the letter `p` and a blank, and then the words `cnf` and two numbers. -/
def HeaderLine (line : List UInt8) (numVars numClauses : Nat) : Prop :=
  ∃ rest vars clauses, Utf8.decodeLossy line = "p " ++ rest ∧
    words rest = ["cnf", vars, clauses] ∧ readBelow? UInt64.size vars = some numVars ∧
      readBelow? UInt64.size clauses = some numClauses

theorem toList_header (rest : String) : ("p " ++ rest).toList = 'p' :: ' ' :: rest.toList := by
  rw [String.toList_append]
  rfl

/-- Some line of the text is a header with these numbers. -/
def Declares (bytes : List UInt8) (numVars numClauses : Nat) : Prop :=
  ∃ line ∈ lines bytes, HeaderLine line numVars numClauses

/-- **What is read of a header line**, unless it declares too many variables. -/
theorem read_of_headerLine {line : List UInt8} {v c : Nat} (h : HeaderLine line v c) (n : Nat) :
    Header.read n line =
      if hv : v ≤ maxVar then .ok ⟨v, c, hv⟩ else .error (.literalTooLarge n v) := by
  obtain ⟨rest, vars, clauses, htext, hwords, hvars, hclauses⟩ := h
  simp only [Header.read, htext, toList_header, String.ofList_toList, hwords, hvars, hclauses]

theorem headerLine_of_read {line : List UInt8} {n : Nat} {h : Header}
    (hread : Header.read n line = .ok h) : HeaderLine line h.numVars h.numClauses := by
  rw [Header.read] at hread
  split at hread
  · next rest hlist =>
    split at hread
    · next vars more hwords =>
      split at hread
      · cases hread
      · next v hvars =>
        split_ifs at hread with hv
        split at hread
        · next clauses =>
          split at hread
          · next c hclauses =>
            cases hread
            refine ⟨String.ofList rest, vars, clauses, ?_, hwords, hvars, hclauses⟩
            rw [← String.toList_inj, hlist, toList_header, String.toList_ofList]
          · cases hread
        · cases hread
    · cases hread
  · cases hread

/-- A line that is read as a header declares what was read, and nothing else. -/
theorem headerLine_iff_of_read {line : List UInt8} {n : Nat} {h : Header}
    (hread : Header.read n line = .ok h) {v c : Nat} :
    HeaderLine line v c ↔ h.numVars = v ∧ h.numClauses = c := by
  refine ⟨fun hline => ?_, ?_⟩
  · rw [read_of_headerLine hline] at hread
    split_ifs at hread with hv
    cases hread
    exact ⟨rfl, rfl⟩
  · rintro ⟨rfl, rfl⟩
    exact headerLine_of_read hread

/-- The line begins with an ASCII character, and that is not the letter `p`. -/
def PlainLine (line : List UInt8) : Prop := ∃ b rest, line = b :: rest ∧ b < 128 ∧ b ≠ 112

theorem PlainLine.append {line : List UInt8} (h : PlainLine line) (more : List UInt8) :
    PlainLine (line ++ more) := by
  obtain ⟨b, rest, rfl, hplain⟩ := h
  exact ⟨b, rest ++ more, rfl, hplain⟩

theorem not_headerLine_nil {v c : Nat} : ¬ HeaderLine [] v c := by
  rintro ⟨rest, _, _, htext, -⟩
  have hlist := congrArg String.toList htext
  rw [toList_header, Utf8.decodeLossy, Utf8.pieces] at hlist
  cases hlist

/-- **A line with another first character is not a header**, whatever comes after it. -/
theorem PlainLine.not_headerLine {line : List UInt8} (h : PlainLine line) {v c : Nat} :
    ¬ HeaderLine line v c := by
  obtain ⟨b, rest, rfl, hascii, hne⟩ := h
  rintro ⟨text, _, _, htext, -⟩
  have hlist := congrArg String.toList htext
  rw [toList_header, Utf8.decodeLossy, String.toList_ofList, Utf8.pieces,
    if_pos (show b < 0x80 from hascii), List.map_cons] at hlist
  have hchar : Char.ofNat b.toNat = 'p' := (List.cons.inj hlist).1
  have hvalid : b.toNat.isValidChar := .inl (Nat.lt_trans b.toNat_lt (by decide))
  have hnat := congrArg Char.toNat hchar
  rw [Char.ofNat, dif_pos hvalid] at hnat
  exact hne (UInt8.toNat_inj.1 hnat)

/-! ## What the reader knows of the lines

The invariant of the reader is `Follows`.  It speaks of the finished lines and of the one under
way, so a byte that ends a line moves the latter to the former, and no other byte touches the
former at all. -/

/-- The unfinished line, as far as the mode tells. -/
def Mode.Fits : Mode → List UInt8 → Prop
  | .lineStart, line => line = []
  | .header bytes, line => line = bytes.reverse
  | _, line => PlainLine line

theorem Mode.Running.fits_iff {m : Mode} (h : m.Running) {line : List UInt8} :
    m.Fits line ↔ PlainLine line := by
  cases h <;> exact Iff.rfl

namespace Reading

/-- After the finished lines `before` and as much of the next one as `last`, the reader knows where
in the line it stands, and it has the one header that there is among the finished lines. -/
structure Follows (before : List (List UInt8)) (last : List UInt8) (r : Reading) : Prop where
  fits : r.mode.Fits last
  header_iff : ∀ v c, (∃ line ∈ before, HeaderLine line v c) ↔
    ∃ h, r.header = some h ∧ h.numVars = v ∧ h.numClauses = c
  /-- A header is only begun if there is none. -/
  header_none : ∀ bytes, r.mode = .header bytes → r.header = none

variable {before : List (List UInt8)} {last : List UInt8} {r r' : Reading}

theorem follows_start : Follows [] [] start where
  fits := rfl
  header_iff := fun v c => by simp [start]
  header_none := nofun

theorem Follows.last_eq_nil (h : Follows before last r) (hm : r.mode = .lineStart) : last = [] := by
  have hfits := h.fits
  rwa [hm] at hfits

theorem Follows.last_eq_reverse (h : Follows before last r) {done : List UInt8}
    (hm : r.mode = .header done) : last = done.reverse := by
  have hfits := h.fits
  rwa [hm] at hfits

theorem Follows.plainLine (h : Follows before last r) (hm : r.mode.Running) : PlainLine last :=
  hm.fits_iff.1 h.fits

/-- No header is the line under way, unless the reader is in it. -/
theorem Follows.not_headerLine (h : Follows before last r)
    (hm : r.mode = .lineStart ∨ r.mode.Running) (v c : Nat) : ¬ HeaderLine last v c := by
  rcases hm with hm | hm
  · obtain rfl := h.last_eq_nil hm
    exact not_headerLine_nil
  · exact (h.plainLine hm).not_headerLine

/-- A line ends that is not a header. -/
theorem Follows.lineEnds (h : Follows before last r) (hm : r.mode = .lineStart ∨ r.mode.Running)
    (hm' : r'.mode = .lineStart) (hheader : r'.header = r.header) :
    Follows (before ++ [last]) [] r' where
  fits := by
    rw [hm']
    rfl
  header_iff := fun v c => by
    rw [hheader, ← h.header_iff]
    simp [or_and_right, exists_or, h.not_headerLine hm]
  header_none := by
    rw [hm']
    nofun

/-- A line goes on that is not a header. -/
theorem Follows.lineGoesOn (h : Follows before last r) {line : List UInt8} (hline : PlainLine line)
    (hm' : r'.mode.Running) (hheader : r'.header = r.header) : Follows before line r' where
  fits := hm'.fits_iff.2 hline
  header_iff := fun v c => by rw [hheader, h.header_iff]
  header_none := fun bytes hbytes => by
    rw [hbytes] at hm'
    cases hm'

/-- A header begins or goes on. -/
theorem Follows.headerGoesOn (h : Follows before last r) (done : List UInt8) {line : Nat}
    (hnone : r.header = none) :
    Follows before done.reverse { r with line := line, mode := .header done } where
  fits := rfl
  header_iff := h.header_iff
  header_none := fun _ _ => hnone

/-- A header ends.  It is the first one, so that it is the only one now. -/
theorem Follows.headerEnds (h : Follows before last r) {done : List UInt8} {line n : Nat}
    {header : Header} (hm : r.mode = .header done)
    (hread : Header.read n done.reverse = .ok header) :
    Follows (before ++ [last]) []
      { r with line := line, mode := .lineStart, header := some header } where
  fits := rfl
  header_iff := fun v c => by
    obtain rfl := h.last_eq_reverse hm
    have hbefore : ¬ ∃ line ∈ before, HeaderLine line v c := by
      rw [h.header_iff, h.header_none _ hm]
      rintro ⟨_, hsome, -⟩
      cases hsome
    simp only [List.mem_append, List.mem_singleton, or_and_right, exists_or, exists_eq_left,
      headerLine_iff_of_read hread, hbefore, false_or, Option.some.injEq, exists_eq_left']
  header_none := nofun

theorem closeLiteral_header (negative : Bool) (value : Fin (maxVar + 1)) :
    (r.closeLiteral negative value).header = r.header := by
  rw [closeLiteral]
  split <;> rfl

/-- **Every step keeps track of the lines.** -/
theorem Follows.steps (h : Follows before last r) (hbytes : lines bytes = before ++ [last])
    (hsteps : Steps r b r') :
    ∃ before' last', lines (bytes ++ [b]) = before' ++ [last'] ∧ Follows before' last' r' := by
  cases hsteps with
  | lineEnds _ hb hm =>
    exact ⟨_, _, hbytes ▸ lines_concat_of_isLineEnd hb, h.lineEnds hm rfl rfl⟩
  | lineBegins _ hb hplain hm hm' =>
    obtain rfl := h.last_eq_nil hm
    exact ⟨_, _, lines_concat hb hbytes, h.lineGoesOn ⟨b, [], rfl, hplain⟩ hm' rfl⟩
  | lineGoesOn _ hb hm hm' =>
    exact ⟨_, _, lines_concat hb hbytes, h.lineGoesOn ((h.plainLine hm).append [b]) hm' rfl⟩
  | @literalEnds _ _ negative value hm hb =>
    have hrunning : r.mode.Running := by
      rw [hm]
      exact .literal _ _
    have hheader := closeLiteral_header (r := r) negative value
    obtain ⟨hb, rfl⟩ | ⟨hb, rfl⟩ := hb
    · exact ⟨_, _, hbytes ▸ lines_concat_of_isLineEnd hb, h.lineEnds (.inr hrunning) rfl hheader⟩
    · exact ⟨_, _, lines_concat hb hbytes,
        h.lineGoesOn ((h.plainLine hrunning).append [b]) .blank hheader⟩
  | headerBegins _ hb hm hnone =>
    obtain rfl := h.last_eq_nil hm
    obtain rfl := hb
    exact ⟨_, _, lines_concat rfl hbytes, h.headerGoesOn [112] hnone⟩
  | headerGoesOn _ hb hm =>
    obtain rfl := h.last_eq_reverse hm
    refine ⟨_, _, lines_concat hb hbytes, ?_⟩
    rw [← List.reverse_cons]
    exact h.headerGoesOn _ (h.header_none _ hm)
  | headerEnds _ hb hm hread =>
    exact ⟨_, _, hbytes ▸ lines_concat_of_isLineEnd hb, h.headerEnds hm hread⟩

/-- **Behind every text that is read** stands a state of the reader that has kept to the bounds and
whose header is the one of the text. -/
theorem exists_of_read {f : Formula} (h : read bytes = .ok f) :
    ∃ r : Reading, r.formula = .ok f ∧ Bounded (bytes ++ [10]) r ∧
      ∀ v c, Declares bytes v c ↔ ∃ h, r.header = some h ∧ h.numVars = v ∧ h.numClauses = c := by
  obtain ⟨r, ⟨⟨before, last, hlines, hfollows⟩, hbounded⟩, hformula⟩ :=
    induction_of_read (P := fun bytes r => (∃ before last, lines bytes = before ++ [last] ∧
      Follows before last r) ∧ Bounded bytes r)
      ⟨⟨[], [], rfl, follows_start⟩, bounded_start⟩
      (fun ⟨⟨_, _, hlines, hfollows⟩, hbounded⟩ hsteps =>
        ⟨hfollows.steps hlines hsteps, hbounded.steps hsteps⟩) h
  rw [lines_concat_of_isLineEnd rfl] at hlines
  obtain ⟨rfl, -⟩ := List.append_inj' hlines rfl
  exact ⟨r, hformula, hbounded, hfollows.header_iff⟩

end Reading
end SnapshotPlan.Dimacs
