import SnapshotPlan.Text.Blank
import SnapshotPlan.Text.Decimal
import SnapshotPlan.Text.Number
import SnapshotPlan.Text.Utf8

/-!
# Reading back plain text

Words, whole numbers and bytes, as they are read where a program has written them: in ASCII, with
single blanks, and with numbers in plain decimal digits.

## What is here

* `readBelow?_toString` — **a number is read back.**
* `wordsFrom_append_blank`, `wordsFrom_self` — characters that are not blank make up a word.
* `eq_of_join_lines` — **lines are told apart by their ends.**
* `IsAscii` and `Utf8.decodeLossy_map_ofNat` — **ASCII text is read back from its bytes.**
-/

set_option autoImplicit false

namespace SnapshotPlan.Text

/-! ## Numbers -/

theorem bounds_of_isDigit {c : Char} (h : c.isDigit = true) : 48 ≤ c.toNat ∧ c.toNat ≤ 57 :=
  Char.isDigit_iff_toNat.1 h

theorem isDigit_of_mem_toString {n : Nat} {c : Char} (h : c ∈ (toString n).toList) :
    c.isDigit = true := by
  rw [Nat.toString_eq_repr, Nat.toList_repr] at h
  exact Nat.isDigit_of_mem_toDigits (by decide) (by decide) h

theorem toList_toString_ne_nil (n : Nat) : (toString n).toList ≠ [] := by
  rw [Nat.toString_eq_repr, Nat.toList_repr]
  exact Nat.toDigits_ne_nil

/-- The decimal digits of a number are those with which it is written. -/
theorem map_digitChar_digits (n : Nat) :
    (Decimal.digits n).map Nat.digitChar = (toString n).toList := by
  rw [Nat.toString_eq_repr, Nat.toList_repr]
  fun_induction Decimal.digits n with
  | case1 n h => exact (Nat.toDigits_of_lt_base h).symm
  | case2 n h ih =>
    rw [List.map_append, ih, Nat.toDigits_of_base_le (by decide) (Nat.not_lt.1 h)]
    rfl

theorem digit?_of_isDigit {c : Char} (h : c.isDigit = true) :
    digit? c = some (c.toNat - '0'.toNat) :=
  if_pos (bounds_of_isDigit h)

/-- Digits are read as the number that they denote. -/
theorem digitsOnto_of_isDigit {cs : List Char} (h : ∀ c ∈ cs, c.isDigit = true) : ∀ m : Nat,
    digitsOnto m cs = some (Nat.ofDigitChars 10 cs m) := by
  induction cs with
  | nil => exact fun m => rfl
  | cons c cs ih =>
    obtain ⟨hc, hcs⟩ := List.forall_mem_cons.1 h
    intro m
    rw [digitsOnto, digit?_of_isDigit hc, Option.bind_some, ih hcs, Nat.ofDigitChars_cons]

/-- **A number in decimal digits is read back.** -/
theorem readBelow?_toString {n bound : Nat} (h : n < bound) :
    readBelow? bound (toString n) = some n := by
  have hdigits : digits? (toString n).toList = some n := by
    have hne := toList_toString_ne_nil n
    rw [digits?, if_neg (by rwa [List.isEmpty_iff]),
      digitsOnto_of_isDigit fun c => isDigit_of_mem_toString, Nat.toString_eq_repr,
      Nat.toList_repr, Nat.ofDigitChars_ten_toDigits]
  have hsign : ∀ cs, (toString n).toList ≠ '+' :: cs := fun cs hcs => by
    have hmem : '+' ∈ (toString n).toList := by
      rw [hcs]
      exact List.mem_cons_self
    exact absurd (isDigit_of_mem_toString hmem) (by decide)
  rw [readBelow?]
  split
  · next cs hcs => exact absurd hcs (hsign cs)
  · rw [hdigits, Option.filter_some, if_pos (by rwa [decide_eq_true_eq])]

/-! ## Words -/

theorem isBlank_of_isDigit {c : Char} (h : c.isDigit = true) : isBlank c = false := by
  obtain ⟨hlow, hhigh⟩ := bounds_of_isDigit h
  refine List.any_eq_false.2 fun r hr => ?_
  simp only [Bool.and_eq_true, decide_eq_true_eq]
  -- Every range ends below the digits or begins above them.
  have hranges : ∀ r ∈ blankRanges, r.2 < 48 ∨ 57 < r.1 := by decide
  have := hranges r hr
  omega

variable {word : List Char}

theorem wordsFrom_append (h : ∀ c ∈ word, isBlank c = false) : ∀ done rest : List Char,
    wordsFrom done (word ++ rest) = wordsFrom (word.reverse ++ done) rest := by
  induction word with
  | nil => exact fun done rest => rfl
  | cons c word ih =>
    obtain ⟨hc, hword⟩ := List.forall_mem_cons.1 h
    intro done rest
    rw [List.cons_append, wordsFrom, if_neg (by rw [hc]; exact Bool.false_ne_true), ih hword,
      List.reverse_cons, List.append_assoc, List.singleton_append]

/-- A word with a blank after it. -/
theorem wordsFrom_append_blank (h : ∀ c ∈ word, isBlank c = false) (hne : word ≠ []) {b : Char}
    (hb : isBlank b = true) (rest : List Char) :
    wordsFrom [] (word ++ b :: rest) = word :: wordsFrom [] rest := by
  rw [wordsFrom_append h, List.append_nil, wordsFrom, if_pos hb,
    if_neg (by rwa [List.isEmpty_iff, List.reverse_eq_nil_iff]), List.reverse_reverse]

/-- A word at the end. -/
theorem wordsFrom_self (h : ∀ c ∈ word, isBlank c = false) (hne : word ≠ []) :
    wordsFrom [] word = [word] := by
  have happ := wordsFrom_append h [] []
  rw [List.append_nil, List.append_nil] at happ
  rw [happ, wordsFrom, if_neg (by rwa [List.isEmpty_iff, List.reverse_eq_nil_iff]),
    List.reverse_reverse]

/-! ## Where a text is cut

Pieces without the mark that ends them can be told apart in what they are joined to.  The first
piece ends at the first mark, and the rest is the same question again. -/

/-- Two lists that are cut at the first item without a property are cut in the same place. -/
theorem eq_of_append_of_forall {α : Type} {p : α → Bool} {xs ys cs ds : List α} {c d : α}
    (hxs : ∀ a ∈ xs, p a = true) (hys : ∀ a ∈ ys, p a = true) (hc : ¬ p c = true)
    (hd : ¬ p d = true) (h : xs ++ c :: cs = ys ++ d :: ds) : xs = ys ∧ c = d ∧ cs = ds := by
  have htake := congrArg (List.takeWhile p) h
  rw [List.takeWhile_append_of_pos hxs, List.takeWhile_append_of_pos hys,
    List.takeWhile_cons_of_neg hc, List.takeWhile_cons_of_neg hd, List.append_nil,
    List.append_nil] at htake
  rw [htake] at h
  exact ⟨htake, List.cons.inj (List.append_cancel_left h)⟩

/-- **Lines are told apart by their ends**, as long as they have no line end inside. -/
theorem eq_of_join_lines {xs : List String} : ∀ {ys : List String},
    (∀ x ∈ xs, '\n' ∉ x.toList) → (∀ y ∈ ys, '\n' ∉ y.toList) →
      String.join (xs.map (· ++ "\n")) = String.join (ys.map (· ++ "\n")) → xs = ys := by
  have hcons : ∀ (x : String) (xs : List String), (String.join ((x :: xs).map (· ++ "\n"))).toList =
      x.toList ++ '\n' :: (String.join (xs.map (· ++ "\n"))).toList := fun x xs => by
    simp [String.toList_join]
  have hplain : ∀ x : String, '\n' ∉ x.toList → ∀ c ∈ x.toList, decide (c ≠ '\n') = true :=
    fun x hx c hc => decide_eq_true fun h => hx (h ▸ hc)
  induction xs with
  | nil =>
    intro ys _ _ h
    cases ys with
    | nil => rfl
    | cons y ys =>
      have hlist := congrArg String.toList h
      rw [hcons] at hlist
      exact absurd hlist.symm (List.append_ne_nil_of_right_ne_nil _ (List.cons_ne_nil _ _))
  | cons x xs ih =>
    intro ys hxs hys h
    have hlist := congrArg String.toList h
    rw [hcons] at hlist
    cases ys with
    | nil => exact absurd hlist (List.append_ne_nil_of_right_ne_nil _ (List.cons_ne_nil _ _))
    | cons y ys =>
      obtain ⟨hx, hxs⟩ := List.forall_mem_cons.1 hxs
      obtain ⟨hy, hys⟩ := List.forall_mem_cons.1 hys
      rw [hcons] at hlist
      -- Both first lines end at the first line end of the whole.
      obtain ⟨hxy, -, hrest⟩ := eq_of_append_of_forall (p := fun c => decide (c ≠ '\n'))
        (hplain x hx) (hplain y hy) (by decide) (by decide) hlist
      rw [String.toList_inj.1 hxy, ih hxs hys (String.toList_inj.1 hrest)]

/-! ## ASCII -/

/-- Every character of the text is an ASCII character. -/
def IsAscii (s : String) : Prop := ∀ c ∈ s.toList, c.toNat < 128

instance (s : String) : Decidable (IsAscii s) :=
  List.decidableBAll (fun c : Char => c.toNat < 128) s.toList

theorem isAscii_append_iff {s t : String} : IsAscii (s ++ t) ↔ IsAscii s ∧ IsAscii t := by
  rw [IsAscii, String.toList_append, List.forall_mem_append, IsAscii, IsAscii]

theorem isAscii_join_iff {ss : List String} : IsAscii (String.join ss) ↔ ∀ s ∈ ss, IsAscii s := by
  rw [IsAscii, String.toList_join, List.forall_mem_flatMap]
  exact Iff.rfl

theorem isAscii_toString (n : Nat) : IsAscii (toString n) := fun _ hc =>
  Nat.lt_of_le_of_lt (bounds_of_isDigit (isDigit_of_mem_toString hc)).2 (by decide)

theorem toNat_ofNat_toNat {c : Char} (h : c.toNat < 128) : (UInt8.ofNat c.toNat).toNat = c.toNat :=
  Nat.mod_eq_of_lt (by omega)

namespace Utf8

theorem pieces_map_ofNat {cs : List Char} (h : ∀ c ∈ cs, c.toNat < 128) :
    pieces (cs.map fun c => UInt8.ofNat c.toNat) = cs.map some := by
  induction cs with
  | nil => rw [List.map_nil, pieces, List.map_nil]
  | cons c cs ih =>
    obtain ⟨hc, hcs⟩ := List.forall_mem_cons.1 h
    have hlt : UInt8.ofNat c.toNat < 0x80 := by
      rw [UInt8.lt_iff_toNat_lt, toNat_ofNat_toNat hc]
      exact hc
    rw [List.map_cons, pieces, if_pos hlt, ih hcs, toNat_ofNat_toNat hc, Char.ofNat_toNat,
      List.map_cons]

/-- **ASCII text is read back from its bytes.** -/
theorem decodeLossy_map_ofNat {s : String} (h : IsAscii s) :
    decodeLossy (s.toList.map fun c => UInt8.ofNat c.toNat) = s := by
  rw [decodeLossy, pieces_map_ofNat h, List.map_map]
  exact (congrArg String.ofList (List.map_id _)).trans String.ofList_toList

end Utf8
end SnapshotPlan.Text
