import SnapshotPlan.World.Fluent

/-!
# Sets of fluents

A set of fluents is kept as its elements in strictly increasing order.  That order is part of the
type, so a set has one representation: `FluentSet.ext` says that two sets with the same elements
are equal, whatever was inserted into them and removed from them before.

## What is here

* `empty`, `insert`, `erase`, `ofList` and their elements: `not_mem_empty`, `mem_insert`,
  `mem_erase`, `mem_ofList`.
* `FluentSet.ext` — **sets with the same elements are equal.**
* `max?` — the greatest element.
-/

set_option autoImplicit false

namespace SnapshotPlan

/-- A finite set of fluents: its elements in strictly increasing order. -/
structure FluentSet where
  ids : List FluentId
  increasing : ids.Pairwise (· < ·)
  deriving DecidableEq

namespace FluentSet

instance : Membership FluentId FluentSet := ⟨fun s f => f ∈ s.ids⟩

theorem mem_def {f : FluentId} {s : FluentSet} : f ∈ s ↔ f ∈ s.ids := Iff.rfl

instance (f : FluentId) (s : FluentSet) : Decidable (f ∈ s) :=
  inferInstanceAs (Decidable (f ∈ s.ids))

/-! ## Building sets -/

/-- The set without elements. -/
def empty : FluentSet := ⟨[], List.Pairwise.nil⟩

/-- Puts a fluent in its place in an increasing list, unless it is there already. -/
def place (f : FluentId) : List FluentId → List FluentId
  | [] => [f]
  | g :: gs => if f < g then f :: g :: gs else if f = g then g :: gs else g :: place f gs

theorem mem_place {f g : FluentId} {ids : List FluentId} : g ∈ place f ids ↔ g = f ∨ g ∈ ids := by
  induction ids with
  | nil => simp [place]
  | cons h hs ih =>
    simp only [place]
    split
    · simp
    · split
      · next e => subst e; simp
      · simp only [List.mem_cons, ih]
        exact ⟨fun h => h.elim (fun e => .inr (.inl e)) fun h => h.elim .inl fun h => .inr (.inr h),
          fun h => h.elim (fun e => .inr (.inl e)) fun h => h.elim .inl fun h => .inr (.inr h)⟩

theorem pairwise_place (f : FluentId) {ids : List FluentId} (h : ids.Pairwise (· < ·)) :
    (place f ids).Pairwise (· < ·) := by
  induction ids with
  | nil => simp [place]
  | cons g gs ih =>
    obtain ⟨hg, hgs⟩ := List.pairwise_cons.1 h
    simp only [place]
    split
    · next hfg =>
      refine List.pairwise_cons.2 ⟨fun k hk => ?_, h⟩
      rcases List.mem_cons.1 hk with rfl | hk
      · exact hfg
      · exact Nat.lt_trans hfg (hg k hk)
    · next hfg =>
      split
      · exact h
      · next hne =>
        refine List.pairwise_cons.2 ⟨fun k hk => ?_, ih hgs⟩
        rcases mem_place.1 hk with rfl | hk
        · have : ¬ k.toNat = g.toNat := fun e => hne (FluentId.toNat_inj.1 e)
          have : ¬ k.toNat < g.toNat := hfg
          show g.toNat < k.toNat
          omega
        · exact hg k hk

/-- The set with one more element. -/
def insert (s : FluentSet) (f : FluentId) : FluentSet :=
  ⟨place f s.ids, pairwise_place f s.increasing⟩

/-- The set less one element. -/
def erase (s : FluentSet) (f : FluentId) : FluentSet :=
  ⟨s.ids.filter fun g => g ≠ f, s.increasing.filter _⟩

/-- The set of the listed fluents. -/
def ofList (ids : List FluentId) : FluentSet := ids.foldl insert empty

/-! ## Elements -/

theorem not_mem_empty (f : FluentId) : f ∉ empty := by simp [mem_def, empty]

@[simp] theorem mem_insert {f g : FluentId} {s : FluentSet} : g ∈ s.insert f ↔ g = f ∨ g ∈ s :=
  mem_place

@[simp] theorem mem_erase {f g : FluentId} {s : FluentSet} : g ∈ s.erase f ↔ g ≠ f ∧ g ∈ s := by
  simp [mem_def, erase, and_comm]

theorem mem_foldl_insert {f : FluentId} {ids : List FluentId} {s : FluentSet} :
    f ∈ ids.foldl insert s ↔ f ∈ ids ∨ f ∈ s := by
  induction ids generalizing s with
  | nil => simp
  | cons g gs ih =>
    simp only [List.foldl_cons, ih, mem_insert, List.mem_cons]
    exact ⟨fun h => h.elim (fun h => .inl (.inr h)) fun h => h.elim (fun e => .inl (.inl e)) .inr,
      fun h => h.elim (fun h => h.elim (fun e => .inr (.inl e)) .inl) fun h => .inr (.inr h)⟩

@[simp] theorem mem_ofList {f : FluentId} {ids : List FluentId} : f ∈ ofList ids ↔ f ∈ ids := by
  simp [ofList, mem_foldl_insert, not_mem_empty]

/-- Increasing lists with the same elements are equal. -/
theorem eq_of_pairwise {xs ys : List FluentId} (hx : xs.Pairwise (· < ·))
    (hy : ys.Pairwise (· < ·)) (h : ∀ f, f ∈ xs ↔ f ∈ ys) : xs = ys := by
  induction xs generalizing ys with
  | nil =>
    cases ys with
    | nil => rfl
    | cons y ys => exact absurd ((h y).2 (List.mem_cons_self ..)) (by simp)
  | cons x xs ih =>
    cases ys with
    | nil => exact absurd ((h x).1 (List.mem_cons_self ..)) (by simp)
    | cons y ys =>
      obtain ⟨hx1, hx2⟩ := List.pairwise_cons.1 hx
      obtain ⟨hy1, hy2⟩ := List.pairwise_cons.1 hy
      have hxy : x = y := by
        rcases List.mem_cons.1 ((h x).1 (List.mem_cons_self ..)) with e | m
        · exact e
        · rcases List.mem_cons.1 ((h y).2 (List.mem_cons_self ..)) with e | m'
          · exact e.symm
          · exact absurd (Nat.lt_trans (hx1 y m') (hy1 x m)) (Nat.lt_irrefl _)
      subst hxy
      refine congrArg (x :: ·) (ih hx2 hy2 fun f => ?_)
      have hf := h f
      simp only [List.mem_cons] at hf
      constructor
      · intro m
        rcases hf.1 (.inr m) with rfl | m'
        · exact absurd (hx1 f m) (Nat.lt_irrefl _)
        · exact m'
      · intro m
        rcases hf.2 (.inr m) with rfl | m'
        · exact absurd (hy1 f m) (Nat.lt_irrefl _)
        · exact m'

/-- **Sets with the same elements are equal.** -/
theorem ext {s t : FluentSet} (h : ∀ f, f ∈ s ↔ f ∈ t) : s = t := by
  obtain ⟨xs, hx⟩ := s
  obtain ⟨ys, hy⟩ := t
  have e : xs = ys := eq_of_pairwise hx hy h
  subst e
  rfl

/-! ## Views -/

/-- The elements in increasing order. -/
def toList (s : FluentSet) : List FluentId := s.ids

theorem nodup_toList (s : FluentSet) : s.toList.Nodup :=
  s.increasing.imp fun {f g} (hlt : f.toNat < g.toNat) e =>
    Nat.ne_of_lt hlt (congrArg FluentId.toNat e)

/-- The number of elements. -/
def size (s : FluentSet) : Nat := s.ids.length

/-- The set has no element. -/
def isEmpty (s : FluentSet) : Bool := s.ids.isEmpty

/-- The fluent is an element. -/
def contains (s : FluentSet) (f : FluentId) : Bool := decide (f ∈ s)

/-- The greatest element. -/
def max? (s : FluentSet) : Option FluentId := s.ids.getLast?

/-- The elements' long names between braces. -/
def describe (s : FluentSet) : String :=
  "\x7b" ++ ", ".intercalate (s.ids.map FluentId.describe) ++ "\x7d"

end FluentSet

end SnapshotPlan
