import SnapshotPlan.Proofs.Blocks.Generation
import SnapshotPlan.Proofs.Encoding.Clauses
import SnapshotPlan.World.Generator

/-!
# The generator never stops short

The generator asks a builder for what `Blocks.world` is assembled from, in the same order.  The
numbers that it is given are those of the formulas, since each name stands in one place only; so
every look-up finds something, and what it finds is right.

## What is here

* `Declares` — what a step of the generator declares, and what it returns then.  `declares_mapM`:
  going through a list of steps.
* `eq_vocabulary` — **the numbers that are given are those of the formulas.**
* `findActions_eq`, `findGoal_eq` — **no look-up fails.**
* `generate_eq_ok` — **the generator makes the world of the formulas**; `exists_generate`: so it
  never stops.
-/

set_option autoImplicit false

namespace SnapshotPlan

namespace Builder

variable {b : Builder}

/-- A builder finds the fluent that it has declared. -/
theorem exists_addFluent {name : String} (fresh : name ∉ b.numbers) :
    ∃ f b₁, b.addFluent name = (.ok f, b₁) ∧ b₁.numbers[name]? = some f := by
  rw [addFluent, dif_neg fresh]
  exact ⟨_, _, rfl, Std.HashMap.getElem?_insert_self⟩

end Builder

namespace Blocks

variable {α β : Type}

theorem run_bind_of_run {m : Step α} {k : α → Step β} {b b' : Builder} {a : α}
    (h : m.run b = .ok (a, b')) : (m >>= k).run b = (k a).run b' := by
  rw [StateT.run_bind, h]
  rfl

/-! ## Steps that declare fluents

A step runs on a builder that other steps have been at and others will be.  What it returns must
be good for the last builder too, which is what `Lasts` is for. -/

/-- The step declares the names in order, as far as the builder lets it, and what it returns is
related to the builder afterwards. -/
def Declares (m : Step α) (names : List String) (R : Builder → α → Prop) : Prop :=
  ∀ b b', b.performAll (names.map .addFluent) = .ok b' → ∃ a, m.run b = .ok (a, b') ∧ R b' a

/-- The relation outlasts further calls on the builder. -/
def Lasts (R : Builder → α → Prop) : Prop :=
  ∀ b b' cs a, R b a → b.performAll cs = .ok b' → R b' a

theorem declares_declare (name : String) :
    Declares (declare name) [name] fun b f => b.numbers[name]? = some f := by
  intro b b' h
  rw [List.map_singleton, Builder.performAll, Builder.perform, Builder.replying] at h
  by_cases hmem : name ∈ b.numbers
  · have hadd : b.addFluent name = (.error (.duplicateFluent name), b) := dif_pos hmem
    rw [hadd] at h
    cases h
  · obtain ⟨f, b₁, hadd, hf⟩ := Builder.exists_addFluent hmem
    rw [hadd] at h
    cases h
    refine ⟨f, ?_, hf⟩
    show ask _ (fun b => b.addFluent name) b = _
    rw [ask, hadd]

theorem declares_pure {R : Builder → α → Prop} {a : α} (h : ∀ b, R b a) :
    Declares (pure a) [] R := by
  intro b b' hb
  cases hb
  exact ⟨a, rfl, h b⟩

theorem Declares.map {m : Step α} {names : List String} {R : Builder → α → Prop}
    (h : Declares m names R) (f : α → β) :
    Declares (f <$> m) names fun b c => ∃ a, R b a ∧ f a = c := by
  intro b b' hb
  obtain ⟨a, ha, hR⟩ := h b b' hb
  refine ⟨f a, ?_, a, hR, rfl⟩
  rw [StateT.run_map, ha]
  rfl

/-- One step after another declares the names of both, and what the first has returned is still
good. -/
theorem Declares.bind {m : Step α} {k : α → Step β} {names names' : List String}
    {R : Builder → α → Prop} {Q : α → Builder → β → Prop} (hm : Declares m names R)
    (hk : ∀ a, Declares (k a) names' (Q a)) (hR : Lasts R) :
    Declares (m >>= k) (names ++ names') fun b c => ∃ a, R b a ∧ Q a b c := by
  intro b b' hb
  rw [List.map_append] at hb
  obtain ⟨b₁, hb₁, hb'⟩ := Builder.performAll_append_eq_ok_iff.1 hb
  obtain ⟨a, ha, hRa⟩ := hm b b₁ hb₁
  obtain ⟨c, hc, hQ⟩ := hk a b₁ b' hb'
  exact ⟨c, (run_bind_of_run ha).trans hc, a, hR _ _ _ _ hRa hb', hQ⟩

theorem Lasts.forall₂ {ι : Type} {R : ι → Builder → α → Prop} (hR : ∀ x, Lasts (R x))
    {xs : List ι} : Lasts fun b as => List.Forall₂ (fun x a => R x b a) xs as :=
  fun _ _ _ _ h hb => h.imp fun x _ hx => hR x _ _ _ _ hx hb

theorem lasts_numbers (name : String) :
    Lasts fun b (f : FluentId) => b.numbers[name]? = some f :=
  fun _ _ _ _ hf hb => Builder.numbers_performAll hf hb

/-- **Going through a list declares the names of each item in turn.** -/
theorem declares_mapM {ι : Type} {f : ι → Step α} {names : ι → List String}
    {R : ι → Builder → α → Prop} (hf : ∀ x, Declares (f x) (names x) (R x)) (hR : ∀ x, Lasts (R x))
    (xs : List ι) :
    Declares (xs.mapM f) (xs.flatMap names) fun b as =>
      List.Forall₂ (fun x a => R x b a) xs as := by
  induction xs with
  | nil =>
    rw [List.mapM_nil]
    exact declares_pure fun _ => .nil
  | cons x xs ih =>
    rw [List.mapM_cons, List.flatMap_cons]
    simp only [bind_pure_comp]
    intro b b' hb
    -- What the first step returned is read at a builder to which the others have added more.
    obtain ⟨as, has, a, ha, t, ht, rfl⟩ := (hf x).bind (fun a => ih.map (a :: ·)) (hR x) b b' hb
    exact ⟨a :: t, has, .cons ha ht⟩

/-! ## The vocabulary

The steps that declare fluents leave a vocabulary that the builder agrees with, name by name.  As
the builder ends up with the names of the formulas, the numbers are theirs as well. -/

/-- The builder finds the fluent that one block stands on another by its name.  There is none for a
block and itself. -/
inductive KnowsOn (b : Builder) (x y : String) : Option FluentId → Prop
  | self : x = y → KnowsOn b x y none
  | other {f : FluentId} : x ≠ y → b.numbers["on(" ++ x ++ "," ++ y ++ ")"]? = some f →
      KnowsOn b x y (some f)

theorem lasts_knowsOn (x y : String) : Lasts fun b place => KnowsOn b x y place := by
  rintro b b' cs _ (hself | ⟨hne, hf⟩) hb
  · exact .self hself
  · exact .other hne (Builder.numbers_performAll hf hb)

theorem declares_on (x y : String) :
    Declares (if x ≠ y then some <$> declare ("on(" ++ x ++ "," ++ y ++ ")") else pure none)
      (if x ≠ y then ["on(" ++ x ++ "," ++ y ++ ")"] else [])
      fun b place => KnowsOn b x y place := by
  by_cases hxy : x ≠ y
  · rw [if_pos hxy, if_pos hxy]
    intro b b' hb
    obtain ⟨place, hplace, f, hf, rfl⟩ := (declares_declare _).map some b b' hb
    exact ⟨some f, hplace, .other hxy hf⟩
  · rw [if_neg hxy, if_neg hxy]
    exact declares_pure fun b => .self (not_not.1 hxy)

/-- The builder finds the fluents of the vocabulary by their names. -/
structure Vocabulary.Known (names : List String) (b : Builder) (v : Vocabulary) : Prop where
  ontable : List.Forall₂ (fun x f => b.numbers["ontable(" ++ x ++ ")"]? = some f) names v.ontable
  clear : List.Forall₂ (fun x f => b.numbers["clear(" ++ x ++ ")"]? = some f) names v.clear
  on : List.Forall₂ (fun x row => List.Forall₂ (KnowsOn b x) names row) names v.on

/-- The names of the fluents about blocks with the given names. -/
def namesAbout (names : List String) : List String :=
  names.flatMap (fun x => ["ontable(" ++ x ++ ")"]) ++
    (names.flatMap (fun x => ["clear(" ++ x ++ ")"]) ++
      names.flatMap fun x => names.flatMap fun y =>
        if x ≠ y then ["on(" ++ x ++ "," ++ y ++ ")"] else [])

theorem declares_declareAll (names : List String) :
    Declares (declareAll names) (namesAbout names) fun b v => v.Known names b := by
  have hrows := declares_mapM (fun x => declares_mapM (declares_on x) (lasts_knowsOn x) names)
    (fun x => Lasts.forall₂ (lasts_knowsOn x)) names
  have hclear := declares_mapM (fun x => declares_declare ("clear(" ++ x ++ ")"))
    (fun x => lasts_numbers _) names
  have hontable := declares_mapM (fun x => declares_declare ("ontable(" ++ x ++ ")"))
    (fun x => lasts_numbers _) names
  have hlasts : ∀ head : String, Lasts fun b fs =>
      List.Forall₂ (fun x (f : FluentId) => b.numbers[head ++ x ++ ")"]? = some f) names fs :=
    fun head => Lasts.forall₂ fun x => lasts_numbers (head ++ x ++ ")")
  have hall := hontable.bind (fun ontable => hclear.bind (fun clear =>
    hrows.map fun on => (⟨ontable, clear, on⟩ : Vocabulary)) (hlasts "clear(")) (hlasts "ontable(")
  intro b b' hb
  obtain ⟨v, hv, ontable, hontable, clear, hclear, on, hon, rfl⟩ := hall b b' hb
  exact ⟨_, hv, hontable, hclear, hon⟩

/-- The numbers that the formulas give to the fluents. -/
def vocabulary (n : Nat) : Vocabulary where
  ontable := (List.range n).map Blocks.ontable
  clear := (List.range n).map (Blocks.clear n)
  on := (List.range n).map fun x => (List.range n).map fun y =>
    if x = y then none else some (Blocks.on n x y)

theorem flatMap_ite {ι : Type} (p : ι → Prop) [DecidablePred p] (f : ι → α) (xs : List ι) :
    (xs.flatMap fun x => if p x then [f x] else []) = (xs.filter fun x => p x).map f := by
  induction xs with
  | nil => rfl
  | cons x xs ih =>
    rw [List.flatMap_cons, ih, List.filter_cons]
    by_cases hx : p x <;> simp [hx]

theorem namesAbout_blocks (n : Nat) :
    namesAbout ((List.range n).map blockName) = fluentNames n := by
  have hothers : ∀ x, ((List.range n).filter fun y => blockName x ≠ blockName y) = others n x :=
    fun x => List.filter_congr fun y _ => decide_eq_decide.2
      (not_congr (blockName_injective.eq_iff.trans eq_comm))
  simp only [namesAbout, List.flatMap_map, flatMap_ite, hothers, fluentNames, List.append_assoc]
  simp only [List.map_eq_flatMap]

theorem eq_map_of_forall₂ {ι : Type} {R : ι → α → Prop} {f : ι → α} {xs : List ι} {as : List α}
    (h : List.Forall₂ R xs as) (hR : ∀ x ∈ xs, ∀ a, R x a → a = f x) : as = xs.map f := by
  induction h with
  | nil => rfl
  | @cons x a xs as hxa _ ih =>
    obtain ⟨hx, hxs⟩ := List.forall_mem_cons.1 hR
    rw [List.map_cons, ← hx a hxa, ← ih hxs]

section Known

variable {n : Nat} {b : Builder}

/-- A name stands in one place, so it has one number. -/
theorem eq_ofNat_of_numbers (hb : b.problem.fluents.toList = fluentNames n) {name : String}
    {i : Nat} (hi : (fluentNames n)[i]? = some name) {f : FluentId}
    (hf : b.numbers[name]? = some f) : f = .ofNat i := by
  obtain ⟨j, hj, rfl⟩ := (b.find_iff name f).1 hf
  rw [← Array.getElem?_toList, hb, ← hi] at hj
  have hlt : i < (fluentNames n).length := (List.getElem?_eq_some_iff.1 hi).1
  rw [(List.getElem?_inj hlt (nodup_fluentNames n)).1 hj.symm]

/-- **The numbers that are given are those of the formulas.** -/
theorem eq_vocabulary (hb : b.problem.fluents.toList = fluentNames n) {v : Vocabulary}
    (hv : v.Known ((List.range n).map blockName) b) : v = vocabulary n := by
  obtain ⟨ontable, clear, on⟩ := v
  obtain ⟨hontable, hclear, hon⟩ := hv
  rw [List.forall₂_map_left_iff] at hontable hclear hon
  rw [vocabulary, Vocabulary.mk.injEq]
  refine ⟨eq_map_of_forall₂ hontable fun x hx f hf => ?_,
    eq_map_of_forall₂ hclear fun x hx f hf => ?_, eq_map_of_forall₂ hon fun x hx row hrow => ?_⟩
  · exact eq_ofNat_of_numbers hb (getElem?_fluentNames_ontable (List.mem_range.1 hx)) hf
  · exact eq_ofNat_of_numbers hb (getElem?_fluentNames_clear (List.mem_range.1 hx)) hf
  · rw [List.forall₂_map_left_iff] at hrow
    refine eq_map_of_forall₂ hrow fun y hy place hplace => ?_
    rcases hplace with hself | ⟨hne, hf⟩
    · rw [if_pos (blockName_injective hself)]
    · have hxy : x ≠ y := fun e => hne (congrArg blockName e)
      rw [if_neg hxy, eq_ofNat_of_numbers hb (getElem?_fluentNames_on (List.mem_range.1 hx)
        (List.mem_range.1 hy) hxy.symm) hf]
      rfl

end Known

/-! ## Looking up

With the vocabulary at hand a look-up goes to a place in a list of known length.  The loops over
blocks never ask for a block on itself, so each finds its fluent. -/

section Find

variable {n : Nat} {x y z : Nat}

theorem item_map_range (f : Nat → α) (hx : x < n) : item ((List.range n).map f) x = .ok (f x) := by
  rw [item, List.getElem?_map, List.getElem?_range hx]
  rfl

theorem item_ontable (hx : x < n) : item (vocabulary n).ontable x = .ok (ontable x) :=
  item_map_range _ hx

theorem item_clear (hx : x < n) : item (vocabulary n).clear x = .ok (clear n x) :=
  item_map_range _ hx

theorem find_vocabulary_eq (hx : x < n) (hy : y < n) : (vocabulary n).find x y =
    if x = y then .error (.absent "no on(x,x) fluent") else .ok (on n x y) := by
  have hrow := item_map_range
    (fun x => (List.range n).map fun y => if x = y then none else some (on n x y)) hx
  have hplace := item_map_range (fun y => if x = y then none else some (on n x y)) hy
  rw [Vocabulary.find, vocabulary, hrow]
  show (item _ y >>= _) = _
  rw [hplace]
  split <;> rfl

theorem find_vocabulary (hx : x < n) (hy : y < n) (hne : y ≠ x) :
    (vocabulary n).find x y = .ok (on n x y) := by
  rw [find_vocabulary_eq hx hy, if_neg hne.symm]

theorem findMove_eq (hx : x < n) (hy : y < n) (hz : z < n) (hyx : y ≠ x) (hzx : z ≠ x) :
    findMove ((List.range n).map blockName) (vocabulary n) x y z = .ok (move n x y z) := by
  simp only [findMove, item_map_range _ hx, item_map_range _ hy, item_map_range _ hz, item_clear hx,
    item_clear hy, item_clear hz, find_vocabulary hx hy hyx, find_vocabulary hx hz hzx]
  rfl

theorem findMoveToTable_eq (hx : x < n) (hy : y < n) (hyx : y ≠ x) :
    findMoveToTable ((List.range n).map blockName) (vocabulary n) x y =
      .ok (moveToTable n x y) := by
  simp only [findMoveToTable, item_map_range _ hx, item_map_range _ hy, item_clear hx,
    item_clear hy, item_ontable hx, find_vocabulary hx hy hyx]
  rfl

theorem findMoveFromTable_eq (hx : x < n) (hy : y < n) (hyx : y ≠ x) :
    findMoveFromTable ((List.range n).map blockName) (vocabulary n) x y =
      .ok (moveFromTable n x y) := by
  simp only [findMoveFromTable, item_map_range _ hx, item_map_range _ hy, item_clear hx,
    item_clear hy, item_ontable hx, find_vocabulary hx hy hyx]
  rfl

end Find

theorem findPair_eq {n x y : Nat} (hx : x < n) (hy : y < n) (hyx : y ≠ x) :
    findPair ((List.range n).map blockName) (vocabulary n) n x y =
      .ok (((others n x).filter fun z => z ≠ y).map (move n x y) ++
        [moveToTable n x y, moveFromTable n x y]) := by
  have hfilter : ((List.range n).filter fun z => z ≠ x ∧ z ≠ y) =
      (others n x).filter fun z => z ≠ y := by
    rw [others, List.filter_filter]
    exact List.filter_congr fun z _ => by rw [Bool.decide_and, Bool.and_comm]
  rw [findPair, hfilter, mapM_eq_ok_map (g := move n x y) fun z hz => ?_]
  · rw [findMoveToTable_eq hx hy hyx, findMoveFromTable_eq hx hy hyx]
    rfl
  · obtain ⟨hz, -⟩ := List.mem_filter.1 hz
    obtain ⟨hz, hzx⟩ := mem_others.1 hz
    exact findMove_eq hx hy hz hyx hzx

theorem findGroup_eq {n x : Nat} (hx : x < n) :
    findGroup ((List.range n).map blockName) (vocabulary n) n x =
      .ok ((others n x).flatMap fun y => ((others n x).filter fun z => z ≠ y).map (move n x y) ++
        [moveToTable n x y, moveFromTable n x y]) := by
  rw [findGroup, ← others, mapM_eq_ok_map fun y hy =>
    findPair_eq hx (mem_others.1 hy).1 (mem_others.1 hy).2]
  rfl

/-- **Every action is found.** -/
theorem findActions_eq (n : Nat) :
    findActions ((List.range n).map blockName) (vocabulary n) n = .ok (actions n) := by
  rw [findActions, mapM_eq_ok_map fun x hx => findGroup_eq (List.mem_range.1 hx)]
  rfl

theorem getLast?_map_range {n : Nat} (f : Nat → α) :
    ((List.range n).map f).getLast?.toList = if n = 0 then [] else [f (n - 1)] := by
  cases n with
  | zero => rfl
  | succ n => simp [List.range_succ]

theorem findGoal_eq (n : Nat) : findGoal (vocabulary n) n = .ok (goal n) := by
  have hpairs : ∀ x ∈ List.range (n - 1), (vocabulary n).find x (x + 1) = .ok (on n x (x + 1)) :=
    fun x hx => by
      have hx' := List.mem_range.1 hx
      exact find_vocabulary (by omega) (by omega) (Nat.succ_ne_self x)
  have hlast : (vocabulary n).ontable.getLast?.toList = if n = 0 then [] else [ontable (n - 1)] :=
    getLast?_map_range ontable
  rw [findGoal, mapM_eq_ok_map hpairs, hlast]
  rfl

/-! ## The run -/

/-- A step that asks for what may be asked of the builder does what performing the call does. -/
theorem run_ask_of_perform (complaint : String)
    (call : Builder → Except ProblemError α × Builder) {reply : α → Builder.Reply}
    {b b' : Builder} {r : Builder.Reply} (h : Builder.replying reply (call b) = (.ok r, b')) :
    ∃ a, (ask complaint call).run b = .ok (a, b') := by
  rcases hcall : call b with ⟨e | a, b₁⟩
  · rw [hcall] at h
    cases h
  · rw [hcall] at h
    cases h
    refine ⟨a, ?_⟩
    show ask complaint call b = _
    rw [ask, hcall]

theorem run_forM_addAction {as : List Action} {complaint : String} {b b' : Builder}
    (h : b.performAll (as.map .addAction) = .ok b') :
    (forM as fun a => discard (ask complaint fun b => b.addAction a)).run b = .ok ((), b') := by
  induction as generalizing b with
  | nil => cases h; rfl
  | cons a as ih =>
    obtain ⟨r, b₁, ha, hrest⟩ := Builder.exists_perform_of_performAll h
    obtain ⟨id, hid⟩ := run_ask_of_perform complaint (fun b => b.addAction a) ha
    have hdiscard : (discard (ask complaint fun b => b.addAction a)).run b = .ok ((), b₁) := by
      show ((fun _ => ()) <$> ask complaint fun b => b.addAction a).run b = _
      rw [StateT.run_map, hid]
      rfl
    rw [List.forM_cons]
    exact (run_bind_of_run hdiscard).trans (ih hrest)

/-- **The generator makes the world of the formulas.** -/
theorem generate_eq_ok {n : Nat} {p : Problem} (h : world n = .ok p) : generate n = .ok p := by
  rw [world, Problem.assemble] at h
  obtain ⟨b₄, hall, rfl⟩ : ∃ b, Builder.blank.performAll ((fluentNames n).map .addFluent ++
      (actions n).map .addAction ++ [.setInitial (initial n), .setGoal (goal n)]) = .ok b ∧
      b.build = p := by
    rcases hb : Builder.blank.performAll _ with e | b
    · rw [hb] at h
      cases h
    · rw [hb] at h
      exact ⟨b, rfl, Except.ok.inj h⟩
  obtain ⟨b₂, hdeclared, hrest⟩ := Builder.performAll_append_eq_ok_iff.1 hall
  obtain ⟨b₁, hfluents, hactions⟩ := Builder.performAll_append_eq_ok_iff.1 hdeclared
  obtain ⟨r, b₃, hinit, hrest⟩ := Builder.exists_perform_of_performAll hrest
  obtain ⟨r', b₅, hgoal, hnone⟩ := Builder.exists_perform_of_performAll hrest
  cases hnone
  have hb₁ : b₁.problem.fluents.toList = fluentNames n := by
    obtain ⟨b, hb, hlist, -⟩ :=
      @Builder.exists_performAll_addFluent (fluentNames n) .blank (nodup_fluentNames n)
    obtain rfl : b = b₁ := Except.ok.inj (hb.symm.trans hfluents)
    exact hlist
  rw [← namesAbout_blocks] at hfluents
  obtain ⟨v, hv, hknown⟩ := declares_declareAll _ _ _ hfluents
  obtain rfl := eq_vocabulary hb₁ hknown
  obtain ⟨⟨⟩, hinit⟩ := run_ask_of_perform "invalid initial state"
    (fun b => b.setInitial (initial n)) hinit
  obtain ⟨⟨⟩, hgoal⟩ := run_ask_of_perform "invalid goal" (fun b => b.setGoal (goal n)) hgoal
  have hrun : (steps n).run .blank = .ok ((), b₄) := by
    refine (run_bind_of_run hv).trans ?_
    rw [findActions_eq, findGoal_eq]
    refine (run_bind_of_run rfl).trans ((run_bind_of_run (run_forM_addAction hactions)).trans ?_)
    exact (run_bind_of_run hinit).trans ((run_bind_of_run rfl).trans hgoal)
  rw [generate, hrun]
  rfl

/-- **The generator never stops**, and what it makes is a blocks world. -/
theorem exists_generate (n : Nat) : ∃ p, generate n = .ok p ∧ IsWorld n p := by
  obtain ⟨p, hp, hworld⟩ := exists_world n
  exact ⟨p, generate_eq_ok hp, hworld⟩

end Blocks

end SnapshotPlan
