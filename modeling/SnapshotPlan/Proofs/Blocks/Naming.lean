import Mathlib.Data.List.Nodup
import SnapshotPlan.Proofs.Text.Reading
import SnapshotPlan.World.Blocks

/-!
# The names of a blocks world

Blocks are named by letters and digits alone, so a name with several of them in it can be taken
apart again at its punctuation.

## What is here

* `blockName_injective` — **blocks have distinct names.**
* `eq_of_append_stop` — where a name stands before punctuation, it ends there.
* `nodup_fluentNames`, `length_fluentNames` — **fluents have distinct names**, and there are
  `n * (n + 1)` of them.
* `getElem?_fluentNames_ontable` and its companions — the names stand where the numbers say.
-/

set_option autoImplicit false

namespace SnapshotPlan.Blocks

/-! ## Blocks -/

theorem toList_blockName_of_lt {i : Nat} (h : i < 26) :
    (blockName i).toList = [Char.ofNat (65 + i)] := by
  rw [blockName, if_pos h, String.toList_singleton]

theorem toList_blockName_of_le {i : Nat} (h : 26 ≤ i) :
    (blockName i).toList = 'B' :: (toString i).toList := by
  rw [blockName, if_neg (Nat.not_lt.2 h), String.toList_append]
  rfl

theorem toNat_letter {i : Nat} (h : i < 26) : (Char.ofNat (65 + i)).toNat = 65 + i := by
  revert i
  decide

/-- A block name has letters and digits only. -/
theorem isAlphanum_of_mem_blockName {i : Nat} {c : Char} (h : c ∈ (blockName i).toList) :
    c.isAlphanum = true := by
  by_cases hi : i < 26
  · rw [toList_blockName_of_lt hi, List.mem_singleton] at h
    subst h
    revert i
    decide
  · rw [toList_blockName_of_le (Nat.not_lt.1 hi), List.mem_cons] at h
    rcases h with rfl | h
    · rfl
    · rw [Char.isAlphanum, Text.isDigit_of_mem_toString h, Bool.or_true]

/-- A letter alone is shorter than a letter with a number. -/
theorem toList_blockName_ne {i j : Nat} (hi : i < 26) (hj : 26 ≤ j) :
    (blockName i).toList ≠ (blockName j).toList := by
  rw [toList_blockName_of_lt hi, toList_blockName_of_le hj]
  intro h
  exact Text.toList_toString_ne_nil j (List.cons.inj h).2.symm

/-- **Blocks have distinct names.** -/
theorem blockName_injective : Function.Injective blockName := by
  intro i j h
  have hlist : (blockName i).toList = (blockName j).toList := by rw [h]
  rcases Nat.lt_or_ge i 26 with hi | hi <;> rcases Nat.lt_or_ge j 26 with hj | hj
  · rw [toList_blockName_of_lt hi, toList_blockName_of_lt hj] at hlist
    have hnat := congrArg Char.toNat (List.cons.inj hlist).1
    rw [toNat_letter hi, toNat_letter hj] at hnat
    exact Nat.add_left_cancel hnat
  · exact absurd hlist (toList_blockName_ne hi hj)
  · exact absurd hlist.symm (toList_blockName_ne hj hi)
  · rw [toList_blockName_of_le hi, toList_blockName_of_le hj] at hlist
    have hread := Text.readBelow?_toString (show i < i + j + 1 by omega)
    rw [String.toList_inj.1 (List.cons.inj hlist).2,
      Text.readBelow?_toString (show j < i + j + 1 by omega)] at hread
    exact (Option.some.inj hread).symm

/-! ## Names with blocks in them

The name of a block ends at the first character that is not alphanumeric.  A bracket or a comma
is such a character, so the block can be read off what stands before it. -/

/-- **Punctuation ends a block name**, whatever comes after it. -/
theorem eq_of_append_stop {x y : Nat} {c d : Char} {cs ds : List Char} (hc : c.isAlphanum = false)
    (hd : d.isAlphanum = false)
    (h : (blockName x).toList ++ c :: cs = (blockName y).toList ++ d :: ds) :
    x = y ∧ c = d ∧ cs = ds := by
  obtain ⟨hname, hrest⟩ := Text.eq_of_append_of_forall (p := Char.isAlphanum)
    (fun _ => isAlphanum_of_mem_blockName) (fun _ => isAlphanum_of_mem_blockName)
    (Bool.eq_false_iff.1 hc) (Bool.eq_false_iff.1 hd) h
  exact ⟨blockName_injective (String.toList_inj.1 hname), hrest⟩

theorem injective_unaryName (head : String) :
    Function.Injective fun x => head ++ blockName x ++ ")" := by
  intro x y h
  have hlist := congrArg String.toList h
  simp only [String.toList_append] at hlist
  exact blockName_injective
    (String.toList_inj.1 (List.append_cancel_left (List.append_cancel_right hlist)))

theorem onName_inj {x y x' y' : Nat}
    (h : "on(" ++ blockName x ++ "," ++ blockName y ++ ")" =
      "on(" ++ blockName x' ++ "," ++ blockName y' ++ ")") : x = x' ∧ y = y' := by
  have hlist := congrArg String.toList h
  simp only [String.toList_append, List.append_assoc] at hlist
  obtain ⟨hx, -, hrest⟩ := eq_of_append_stop (by decide) (by decide) (List.append_cancel_left hlist)
  exact ⟨hx, blockName_injective (String.toList_inj.1 (List.append_cancel_right hrest))⟩

/-! ## Fluents -/

theorem length_flatMap_of_forall {α β : Type} {xs : List α} {f : α → List β} {k : Nat}
    (h : ∀ x ∈ xs, (f x).length = k) : (xs.flatMap f).length = xs.length * k := by
  induction xs with
  | nil => rw [List.flatMap_nil, List.length_nil, List.length_nil, Nat.zero_mul]
  | cons x xs ih =>
    obtain ⟨hx, hxs⟩ := List.forall_mem_cons.1 h
    rw [List.flatMap_cons, List.length_append, hx, ih hxs, List.length_cons, Nat.succ_mul,
      Nat.add_comm]

theorem mem_others {n x y : Nat} : y ∈ others n x ↔ y < n ∧ y ≠ x := by
  rw [others, List.mem_filter, List.mem_range, decide_eq_true_eq]

theorem nodup_others (n x : Nat) : (others n x).Nodup := List.nodup_range.filter _

theorem length_filter_ne {xs : List Nat} (hxs : xs.Nodup) {x : Nat} (hx : x ∈ xs) :
    (xs.filter fun y => y ≠ x).length = xs.length - 1 := by
  have herase : (xs.filter fun y => y ≠ x) = xs.erase x := by
    rw [hxs.erase_eq_filter]
    exact List.filter_congr fun y _ => Bool.eq_iff_iff.2 (by simp)
  rw [herase, List.length_erase_of_mem hx]

theorem length_others {n x : Nat} (h : x < n) : (others n x).length = n - 1 := by
  rw [others, length_filter_ne List.nodup_range (List.mem_range.2 h), List.length_range]

/-- **Fluents have distinct names.** -/
theorem nodup_fluentNames (n : Nat) : (fluentNames n).Nodup := by
  have hon : ((List.range n).flatMap fun x => (others n x).map fun y =>
      "on(" ++ blockName x ++ "," ++ blockName y ++ ")").Nodup := by
    refine List.nodup_flatMap.2 ⟨fun x _ => ?_, List.nodup_range.imp fun {x x'} hne => ?_⟩
    · exact (nodup_others n x).map fun y y' h => (onName_inj h).2
    · refine List.disjoint_left.2 fun name hname hname' => ?_
      obtain ⟨y, -, rfl⟩ := List.mem_map.1 hname
      obtain ⟨y', -, h⟩ := List.mem_map.1 hname'
      exact hne (onName_inj h).1.symm
  rw [fluentNames, List.nodup_append, List.nodup_append]
  refine ⟨⟨List.nodup_range.map (injective_unaryName _),
    List.nodup_range.map (injective_unaryName _), ?_⟩, hon, ?_⟩
  · rintro a ha b hb rfl
    obtain ⟨x, -, rfl⟩ := List.mem_map.1 ha
    obtain ⟨y, -, h⟩ := List.mem_map.1 hb
    simp [← String.toList_inj] at h
  · rintro a ha b hb rfl
    obtain ⟨x', -, hb⟩ := List.mem_flatMap.1 hb
    obtain ⟨y', -, rfl⟩ := List.mem_map.1 hb
    rcases List.mem_append.1 ha with ha | ha
    · obtain ⟨x, -, h⟩ := List.mem_map.1 ha
      simp [← String.toList_inj] at h
    · obtain ⟨x, -, h⟩ := List.mem_map.1 ha
      simp [← String.toList_inj] at h

theorem length_fluentNames (n : Nat) : (fluentNames n).length = n * (n + 1) := by
  have hon : ((List.range n).flatMap fun x => (others n x).map fun y =>
      "on(" ++ blockName x ++ "," ++ blockName y ++ ")").length = n * (n - 1) := by
    rw [length_flatMap_of_forall fun x hx => ?_, List.length_range]
    rw [List.length_map, length_others (List.mem_range.1 hx)]
  rw [fluentNames, List.length_append, List.length_append, hon, List.length_map, List.length_map,
    List.length_range]
  cases n with
  | zero => rfl
  | succ n => rw [Nat.add_sub_cancel, Nat.mul_succ, Nat.mul_succ]; omega

/-! ## Places of the names -/

/-- In rows of equal length, a number determines a row and a place in it. -/
theorem getElem?_flatMap_of_forall {α β : Type} {f : α → List β} {d k : Nat} (hk : k < d)
    {xs : List α} : (∀ x ∈ xs, (f x).length = d) → ∀ i,
      (xs.flatMap f)[i * d + k]? = xs[i]?.bind fun x => (f x)[k]? := by
  induction xs with
  | nil => exact fun _ i => rfl
  | cons x xs ih =>
    intro h i
    obtain ⟨hx, hxs⟩ := List.forall_mem_cons.1 h
    rw [List.flatMap_cons]
    cases i with
    | zero =>
      rw [Nat.zero_mul, Nat.zero_add, List.getElem?_append_left (hx ▸ hk)]
      rfl
    | succ i =>
      have hle : (f x).length ≤ (i + 1) * d + k := by rw [hx, Nat.succ_mul]; omega
      have hsub : (i + 1) * d + k - (f x).length = i * d + k := by rw [hx, Nat.succ_mul]; omega
      rw [List.getElem?_append_right hle, hsub, ih hxs]
      rfl

/-- The others are all blocks with the one left out. -/
theorem others_eq_map {n x : Nat} (hx : x < n) :
    others n x = (List.range (n - 1)).map fun k => if k < x then k else k + 1 := by
  induction n with
  | zero => cases hx
  | succ n ih =>
    rw [others, List.range_succ, List.filter_append, ← others, Nat.add_sub_cancel]
    rcases Nat.lt_succ_iff_lt_or_eq.1 hx with hlt | rfl
    · have hlast : (List.range n).map (fun k => if k < x then k else k + 1) =
          others n x ++ [n] := by
        obtain ⟨m, rfl⟩ : ∃ m, n = m + 1 := ⟨n - 1, by omega⟩
        rw [ih hlt, Nat.add_sub_cancel, List.range_succ, List.map_append, List.map_singleton,
          if_neg (by omega)]
      have hne : n ≠ x := Nat.ne_of_gt hlt
      rw [hlast, List.filter_singleton, decide_eq_true hne]
      rfl
    · have hall : others x x = List.range x :=
        List.filter_eq_self.2 fun y hy => decide_eq_true (Nat.ne_of_lt (List.mem_range.1 hy))
      have hid : (List.range x).map (fun k => if k < x then k else k + 1) = List.range x :=
        (List.map_congr_left fun k hk => if_pos (List.mem_range.1 hk)).trans (List.map_id _)
      rw [hall, hid, List.filter_singleton, decide_eq_false (not_not.2 rfl)]
      exact List.append_nil _

theorem getElem?_others {n x y : Nat} (hx : x < n) (hy : y < n) (hne : y ≠ x) :
    (others n x)[if y < x then y else y - 1]? = some y := by
  rw [others_eq_map hx, List.getElem?_map, List.getElem?_range (by split <;> omega)]
  refine congrArg some ?_
  by_cases hlt : y < x
  · simp only [hlt, if_true]
  · have hge : ¬ y - 1 < x := by omega
    simp only [hlt, hge, if_false]
    omega

theorem getElem?_fluentNames_ontable {n x : Nat} (hx : x < n) :
    (fluentNames n)[x]? = some ("ontable(" ++ blockName x ++ ")") := by
  rw [fluentNames, List.append_assoc, List.getElem?_append_left (by simpa using hx),
    List.getElem?_map, List.getElem?_range hx]
  rfl

theorem getElem?_fluentNames_clear {n x : Nat} (hx : x < n) :
    (fluentNames n)[n + x]? = some ("clear(" ++ blockName x ++ ")") := by
  rw [fluentNames, List.append_assoc, List.getElem?_append_right (by simp),
    List.getElem?_append_left (by simpa using hx), List.getElem?_map, List.length_map,
    List.length_range, Nat.add_sub_cancel_left, List.getElem?_range hx]
  rfl

theorem getElem?_fluentNames_on {n x y : Nat} (hx : x < n) (hy : y < n) (hne : y ≠ x) :
    (fluentNames n)[2 * n + x * (n - 1) + if y < x then y else y - 1]? =
      some ("on(" ++ blockName x ++ "," ++ blockName y ++ ")") := by
  have hcol : (if y < x then y else y - 1) < n - 1 := by split <;> omega
  have hrows : ∀ x ∈ List.range n, ((others n x).map fun y =>
      "on(" ++ blockName x ++ "," ++ blockName y ++ ")").length = n - 1 := fun x hx => by
    rw [List.length_map, length_others (List.mem_range.1 hx)]
  have hunary : (((List.range n).map fun x => "ontable(" ++ blockName x ++ ")") ++
      (List.range n).map fun x => "clear(" ++ blockName x ++ ")").length = 2 * n := by
    rw [List.length_append, List.length_map, List.length_map, List.length_range, Nat.two_mul]
  rw [fluentNames, Nat.add_assoc, ← hunary, List.getElem?_append_right (Nat.le_add_right _ _),
    Nat.add_sub_cancel_left, getElem?_flatMap_of_forall hcol hrows, List.getElem?_range hx,
    Option.bind_some, List.getElem?_map, getElem?_others hx hy hne]
  rfl

end SnapshotPlan.Blocks
