import Mathlib.Data.List.Forall2

/-!
# Going through a list

A list is gone through with a step that may fail.  It succeeds iff every step does, and then the
results stand in the order of the list; it fails at the first element whose step fails.

## What is here

* `mapM_eq_some_iff`, `mapM_eq_ok_iff` — **the results of a list are those of its elements.**
  `exists_mapM_eq_some_iff`: there are results iff every element has one.
* `mapM_eq_error_iff` — **going through a list fails at the first element that fails.**
* `exists_left_of_forall₂`, `exists_append_of_forall₂`, `forall₂_of_common`,
  `pairwise_of_forall₂` — lists in step with each other.
* `forall_mem_zipIdx_iff` — elements with their positions.
-/

set_option autoImplicit false

namespace SnapshotPlan

/-! ## Steps that may fail -/

theorem mapM_eq_some_iff {α β : Type} {f : α → Option β} {xs : List α} : ∀ {ys : List β},
    xs.mapM f = some ys ↔ xs.map f = ys.map some := by
  induction xs with
  | nil =>
    intro ys
    cases ys with
    | nil => exact iff_of_true rfl rfl
    | cons y ys => exact iff_of_false nofun nofun
  | cons x xs ih =>
    intro ys
    have hcons : (x :: xs).mapM f = (f x).bind fun y => (xs.mapM f).map (y :: ·) := by
      rw [List.mapM_cons]
      cases f x <;> cases xs.mapM f <;> rfl
    rw [hcons, Option.bind_eq_some_iff, List.map_cons]
    simp only [Option.map_eq_some_iff, ih]
    constructor
    · rintro ⟨y, hy, zs, hzs, rfl⟩
      rw [hy, hzs, List.map_cons]
    · intro h
      cases ys with
      | nil => cases h
      | cons y ys =>
        obtain ⟨hx, hxs⟩ := List.cons.inj h
        exact ⟨y, hx, ys, hxs, rfl⟩

theorem mapM_eq_some_iff_forall₂ {α β : Type} {f : α → Option β} {xs : List α} {ys : List β} :
    xs.mapM f = some ys ↔ List.Forall₂ (fun x y => f x = some y) xs ys := by
  rw [mapM_eq_some_iff, ← List.forall₂_eq_eq_eq, List.forall₂_map_left_iff,
    List.forall₂_map_right_iff]

theorem exists_mapM_eq_some_iff {α β : Type} {f : α → Option β} {xs : List α} :
    (∃ ys, xs.mapM f = some ys) ↔ ∀ x ∈ xs, ∃ y, f x = some y := by
  simp only [mapM_eq_some_iff]
  induction xs with
  | nil => exact iff_of_true ⟨[], rfl⟩ (List.forall_mem_nil _)
  | cons x xs ih =>
    rw [List.forall_mem_cons, ← ih]
    constructor
    · rintro ⟨_ | ⟨y, ys⟩, h⟩
      · cases h
      · obtain ⟨hx, hxs⟩ := List.cons.inj h
        exact ⟨⟨y, hx⟩, ys, hxs⟩
    · rintro ⟨⟨y, hx⟩, ys, hxs⟩
      exact ⟨y :: ys, by rw [List.map_cons, hx, hxs, List.map_cons]⟩

theorem mapM_eq_ok_iff {ε α β : Type} {f : α → Except ε β} {xs : List α} {ys : List β} :
    xs.mapM f = .ok ys ↔ List.Forall₂ (fun x y => f x = .ok y) xs ys := by
  induction xs generalizing ys with
  | nil =>
    rw [List.mapM_nil, List.forall₂_nil_left_iff]
    exact ⟨fun h => (Except.ok.inj h).symm, fun h => by rw [h]; rfl⟩
  | cons x xs ih =>
    rw [List.mapM_cons, List.forall₂_cons_left_iff]
    refine ⟨fun h => ?_, ?_⟩
    · rcases hx : f x with fault | y
      · rw [hx] at h
        cases h
      · rcases hxs : xs.mapM f with fault | zs
        · rw [hx, hxs] at h
          cases h
        · rw [hx, hxs] at h
          cases h
          exact ⟨y, zs, rfl, ih.1 hxs, rfl⟩
    · rintro ⟨y, zs, hy, hzs, rfl⟩
      rw [hy, ih.2 hzs]
      rfl

theorem mapM_eq_ok_map {ε α β : Type} {f : α → Except ε β} {g : α → β} {xs : List α}
    (h : ∀ x ∈ xs, f x = .ok (g x)) : xs.mapM f = .ok (xs.map g) := by
  rw [mapM_eq_ok_iff, List.forall₂_map_right_iff, List.forall₂_same]
  exact h

/-- **Going through a list fails at the first element that fails.** -/
theorem mapM_eq_error_iff {ε α β : Type} {f : α → Except ε β} {xs : List α} {fault : ε} :
    xs.mapM f = .error fault ↔ ∃ before x after, xs = before ++ x :: after ∧
      (∀ b ∈ before, ∃ y, f b = .ok y) ∧ f x = .error fault := by
  constructor
  · intro h
    induction xs with
    | nil => cases h
    | cons x xs ih =>
      rw [List.mapM_cons] at h
      rcases hx : f x with fault' | y
      · rw [hx] at h
        cases h
        exact ⟨[], x, xs, rfl, List.forall_mem_nil _, hx⟩
      · rcases hxs : xs.mapM f with fault' | zs
        · rw [hx, hxs] at h
          cases h
          obtain ⟨before, x', after, rfl, hbefore, hfault⟩ := ih hxs
          exact ⟨x :: before, x', after, rfl, List.forall_mem_cons.2 ⟨⟨y, hx⟩, hbefore⟩, hfault⟩
        · rw [hx, hxs] at h
          cases h
  · rintro ⟨before, x, after, rfl, hbefore, hx⟩
    induction before with
    | nil =>
      rw [List.nil_append, List.mapM_cons, hx]
      rfl
    | cons b before ih =>
      obtain ⟨⟨y, hb⟩, hbefore⟩ := List.forall_mem_cons.1 hbefore
      rw [List.cons_append, List.mapM_cons, hb, ih hbefore]
      rfl

/-! ## Lists in step

Where the results of a list stand in its order, what is known of an element is known of the
result in its place, and the other way round. -/

theorem exists_left_of_forall₂ {α β : Type} {R : α → β → Prop} {xs : List α} {ys : List β}
    (h : List.Forall₂ R xs ys) {y : β} (hy : y ∈ ys) : ∃ x ∈ xs, R x y := by
  induction h with
  | nil => cases hy
  | cons hxy _ ih =>
    rcases List.mem_cons.1 hy with rfl | hy
    · exact ⟨_, List.mem_cons_self, hxy⟩
    · obtain ⟨x, hx, hR⟩ := ih hy
      exact ⟨x, List.mem_cons_of_mem _ hx, hR⟩

theorem exists_right_of_forall₂ {α β : Type} {R : α → β → Prop} {xs : List α} {ys : List β}
    (h : List.Forall₂ R xs ys) {x : α} (hx : x ∈ xs) : ∃ y ∈ ys, R x y :=
  exists_left_of_forall₂ h.flip hx

/-- What is related to a list in two parts has two parts itself. -/
theorem exists_append_of_forall₂ {α β : Type} {R : α → β → Prop} {xs xs' : List α} {ys : List β}
    (h : List.Forall₂ R (xs ++ xs') ys) : ∃ zs zs', ys = zs ++ zs' ∧ List.Forall₂ R xs zs ∧
      List.Forall₂ R xs' zs' := by
  refine ⟨ys.take xs.length, ys.drop xs.length, (List.take_append_drop _ _).symm, ?_, ?_⟩
  · exact (List.forall₂_take_append _ _ _ h.flip).flip
  · exact (List.forall₂_drop_append _ _ _ h.flip).flip

/-- Lists that are both in step with a third are in step with each other. -/
theorem forall₂_of_common {α β γ : Type} {R : α → β → Prop} {S : α → γ → Prop} {xs : List α}
    {ys : List β} (h : List.Forall₂ R xs ys) : ∀ {zs : List γ}, List.Forall₂ S xs zs →
      List.Forall₂ (fun y z => ∃ x, R x y ∧ S x z) ys zs := by
  induction h with
  | nil =>
    rintro zs ⟨⟩
    exact .nil
  | @cons x y xs ys hxy _ ih =>
    intro zs h'
    obtain ⟨z, zs, hxz, hzs, rfl⟩ := List.forall₂_cons_left_iff.1 h'
    exact .cons ⟨x, hxy, hxz⟩ (ih hzs)

/-- Lists in step are ordered alike. -/
theorem pairwise_of_forall₂ {α β : Type} {R : α → β → Prop} {S : α → α → Prop} {T : β → β → Prop}
    {xs : List α} {ys : List β} (h : List.Forall₂ R xs ys)
    (hST : ∀ {x x' y y'}, R x y → R x' y' → S x x' → T y y') (hxs : xs.Pairwise S) :
    ys.Pairwise T := by
  induction h with
  | nil => exact .nil
  | @cons x y xs ys hxy hrest ih =>
    rw [List.pairwise_cons] at hxs
    refine List.pairwise_cons.2 ⟨fun y' hy' => ?_, ih hxs.2⟩
    obtain ⟨x', hx', hxy'⟩ := exists_left_of_forall₂ hrest hy'
    exact hST hxy hxy' (hxs.1 x' hx')

/-- What holds of every element with its position holds at every position. -/
theorem forall_mem_zipIdx_iff {α : Type} {xs : List α} {P : α × Nat → Prop} :
    (∀ q ∈ xs.zipIdx, P q) ↔ ∀ (i : Nat) (x : α), xs[i]? = some x → P (x, i) := by
  refine ⟨fun h i x hx => h (x, i) (List.mk_mem_zipIdx_iff_getElem?.2 hx), ?_⟩
  rintro h ⟨x, i⟩ hq
  exact h i x (List.mk_mem_zipIdx_iff_getElem?.1 hq)

end SnapshotPlan
