import SnapshotPlan.Proofs.Blocks.Generator
import SnapshotPlan.Proofs.Encoding.Tallies
import SnapshotPlan.Proofs.Planner.Stages
import SnapshotPlan.Proofs.World.States

/-!
# How much there is in a blocks world

The names of the actions are told apart as those of the fluents are, at their punctuation.  The
clauses are counted by transfers: an action has a clause for each fluent that it lists, and the
fluents that it lists are distinct as long as there are numbers for all.

## What is here

* `NamesPair` — what the name of an action says of two blocks, and `nodup_map_name_actions`:
  **actions have distinct names.**
* `Transfer.length_consequences_action`, `length_consequences_actions` — how many clauses one action
  has, and **how many all have.**
* `size_initial`, `size_goal` — how much is true at first, and how much is asked for.
* `mem_fluentNames_iff` — which fluents there are.
* `generate_census` — **what the generator makes**, in one statement.
-/

set_option autoImplicit false

namespace SnapshotPlan

/-! ## Sizes of sets -/

namespace FluentSet

/-- A set has as many elements as a list that lists each of them once. -/
theorem size_eq_length {s : FluentSet} {ids : List FluentId} (hids : ids.Nodup)
    (h : ∀ f, f ∈ s ↔ f ∈ ids) : s.size = ids.length :=
  ((List.perm_ext_iff_of_nodup s.nodup_toList hids).2 h).length_eq

theorem size_ofList {ids : List FluentId} (hids : ids.Nodup) : (ofList ids).size = ids.length :=
  size_eq_length hids fun _ => mem_ofList

end FluentSet

namespace Blocks

/-! ## The names of the actions -/

/-- The name begins with a word, and then the two blocks come first. -/
def NamesPair (x y : Nat) (name : String) : Prop :=
  ∃ (word : List Char) (stop : Char) (rest : List Char), '(' ∉ word ∧ stop.isAlphanum = false ∧
    name.toList = word ++ '(' :: ((blockName x).toList ++ ',' ::
      ((blockName y).toList ++ stop :: rest))

theorem NamesPair.unique {x y x' y' : Nat} {name : String} (h : NamesPair x y name)
    (h' : NamesPair x' y' name) : x = x' ∧ y = y' := by
  obtain ⟨word, c, rest, hword, hc, hname⟩ := h
  obtain ⟨word', d, rest', hword', hd, hname'⟩ := h'
  rw [hname] at hname'
  have hp : ∀ w : List Char, '(' ∉ w → ∀ a ∈ w, decide (a ≠ '(') = true := fun w hw a ha =>
    decide_eq_true fun e => hw (e ▸ ha)
  obtain ⟨-, -, hargs⟩ := Text.eq_of_append_of_forall (hp word hword) (hp word' hword')
    (by decide) (by decide) hname'
  obtain ⟨hx, -, hargs⟩ := eq_of_append_stop (by decide) (by decide) hargs
  exact ⟨hx, (eq_of_append_stop hc hd hargs).1⟩

/-- The names of the actions that take block `x` from block `y` or put it there from the table. -/
def pairNames (n x y : Nat) : List String :=
  (((others n x).filter fun z => z ≠ y).map fun z => (move n x y z).name) ++
    [(moveToTable n x y).name, (moveFromTable n x y).name]

theorem map_name_actions (n : Nat) : (actions n).map Action.name =
    (List.range n).flatMap fun x => (others n x).flatMap (pairNames n x) := by
  simp only [actions, List.map_flatMap, List.map_append, List.map_map]
  rfl

theorem namesPair_of_mem {n x y : Nat} {name : String} (h : name ∈ pairNames n x y) :
    NamesPair x y name := by
  rw [pairNames, List.mem_append, List.mem_map, List.mem_pair] at h
  obtain ⟨z, -, rfl⟩ | rfl | rfl := h
  · refine ⟨"move".toList, ',', (blockName z).toList ++ [')'], by decide, by decide, ?_⟩
    simp only [move, operator, String.toList_append, List.append_assoc]
    rfl
  · refine ⟨"move-to-table".toList, ')', [], by decide, by decide, ?_⟩
    simp only [moveToTable, operator, String.toList_append, List.append_assoc]
    rfl
  · refine ⟨"move-from-table".toList, ')', [], by decide, by decide, ?_⟩
    simp only [moveFromTable, operator, String.toList_append, List.append_assoc]
    rfl

theorem nodup_pairNames (n x y : Nat) : (pairNames n x y).Nodup := by
  rw [pairNames, List.nodup_append]
  refine ⟨?_, ?_, ?_⟩
  · refine ((nodup_others n x).filter _).map fun z z' h => ?_
    have hlist := congrArg String.toList h
    simp only [move, operator, String.toList_append, List.append_assoc,
      List.append_cancel_left_eq] at hlist
    exact blockName_injective (String.toList_inj.1 (List.append_cancel_right hlist))
  · simp [moveToTable, moveFromTable, operator, ← String.toList_inj]
  · rintro a ha b hb rfl
    obtain ⟨z, -, rfl⟩ := List.mem_map.1 ha
    rcases List.mem_pair.1 hb with h | h <;>
      simp [move, moveToTable, moveFromTable, operator, ← String.toList_inj] at h

/-- **Actions have distinct names.** -/
theorem nodup_map_name_actions (n : Nat) : ((actions n).map Action.name).Nodup := by
  rw [map_name_actions]
  refine List.nodup_flatMap.2 ⟨fun x _ => List.nodup_flatMap.2 ⟨fun y _ => nodup_pairNames n x y,
    (nodup_others n x).imp fun {y y'} hne => ?_⟩, List.nodup_range.imp fun {x x'} hne => ?_⟩
  · exact List.disjoint_left.2 fun name h h' =>
      hne ((namesPair_of_mem h).unique (namesPair_of_mem h')).2
  · refine List.disjoint_left.2 fun name h h' => hne ?_
    obtain ⟨y, -, h⟩ := List.mem_flatMap.1 h
    obtain ⟨y', -, h'⟩ := List.mem_flatMap.1 h'
    exact ((namesPair_of_mem h).unique (namesPair_of_mem h')).1

/-! ## The clauses of the actions

A clause stands for a fluent that an action lists.  A transfer lists four fluents whatever it moves
where, and besides these the clearance of its target twice and that of its source once.  The table
has none. -/

theorem length_consequences_operator {name : String} {needs adds deletes : List FluentId}
    (hneeds : needs.Nodup) (hadds : adds.Nodup) (hdeletes : deletes.Nodup) :
    (operator name needs adds deletes).consequences.length =
      needs.length + adds.length + deletes.length := by
  have hnone : (FluentSet.ofList []).size = 0 := rfl
  simp [Action.consequences, Condition.consequences, ConditionalEffect.consequences, operator,
    Condition.ofLists, Effect.ofLists, Consequence.length_each, FluentSet.size_ofList, hneeds,
    hadds, hdeletes, hnone, Nat.add_assoc]

section Counts

variable {n : Nat} (hn : n * (n + 1) ≤ UInt32.size)

theorem nodup_clearing (place : Option (Fin n)) : (clearing n place).Nodup := by
  cases place <;> simp [clearing]

include hn

theorem standing_not_mem_clearing {x : Fin n} {place place' : Option (Fin n)} (h : place ≠ some x) :
    standing n x place ∉ clearing n place' := by
  intro hmem
  obtain ⟨z, -, hz⟩ := mem_clearing.1 hmem
  exact standing_ne_clear hn h hz.symm

/-- **A transfer has a clause for each fluent that it lists**, since it lists none of them twice. -/
theorem Transfer.length_consequences_action (t : Transfer n) (name : String) :
    (t.action name).consequences.length =
      4 + 2 * (clearing n t.target).length + (clearing n t.source).length := by
  have hblock : clear n t.block ∉ clearing n t.target := by
    intro hmem
    obtain ⟨z, hz, hclear⟩ := mem_clearing.1 hmem
    obtain rfl := (clear_inj hn).1 hclear
    exact t.target_ne_self hz
  have hneeds : (standing n t.block t.source :: clear n t.block :: clearing n t.target).Nodup := by
    refine List.nodup_cons.2 ⟨?_, List.nodup_cons.2 ⟨hblock, nodup_clearing _⟩⟩
    rw [List.mem_cons, not_or]
    exact ⟨standing_ne_clear hn t.source_ne_self, standing_not_mem_clearing hn t.source_ne_self⟩
  have hadds : (standing n t.block t.target :: clearing n t.source).Nodup :=
    List.nodup_cons.2 ⟨standing_not_mem_clearing hn t.target_ne_self, nodup_clearing _⟩
  have hdeletes : (standing n t.block t.source :: clearing n t.target).Nodup :=
    List.nodup_cons.2 ⟨standing_not_mem_clearing hn t.source_ne_self, nodup_clearing _⟩
  rw [Transfer.action, length_consequences_operator hneeds hadds hdeletes]
  simp only [List.length_cons]
  omega

theorem length_consequences_move {x y z : Nat} (hx : x < n) (hy : y < n) (hz : z < n) (hyx : y ≠ x)
    (hzx : z ≠ x) (hzy : z ≠ y) : (move n x y z).consequences.length = 7 :=
  Transfer.length_consequences_action hn
    ⟨⟨x, hx⟩, some ⟨y, hy⟩, some ⟨z, hz⟩, by simpa, by simpa, by simpa⟩ _

theorem length_consequences_moveToTable {x y : Nat} (hx : x < n) (hy : y < n) (hyx : y ≠ x) :
    (moveToTable n x y).consequences.length = 5 :=
  Transfer.length_consequences_action hn ⟨⟨x, hx⟩, some ⟨y, hy⟩, none, by simpa, nofun, nofun⟩ _

theorem length_consequences_moveFromTable {x y : Nat} (hx : x < n) (hy : y < n) (hyx : y ≠ x) :
    (moveFromTable n x y).consequences.length = 6 :=
  Transfer.length_consequences_action hn ⟨⟨x, hx⟩, none, some ⟨y, hy⟩, nofun, by simpa, nofun⟩ _

/-- Seven clauses for each way to put a block on a third one, eleven for the table. -/
theorem length_consequences_pair {x y : Nat} (hx : x < n) (hy : y ∈ others n x) :
    ((((others n x).filter fun z => z ≠ y).map (move n x y) ++
      [moveToTable n x y, moveFromTable n x y]).flatMap Action.consequences).length =
      (n - 2) * 7 + 11 := by
  obtain ⟨hyn, hyx⟩ := mem_others.1 hy
  have hthird : ((others n x).filter fun z => z ≠ y).length = n - 2 := by
    rw [length_filter_ne (nodup_others n x) hy, length_others hx, Nat.sub_sub]
  have hmove : ∀ z ∈ (others n x).filter fun z => z ≠ y,
      (move n x y z).consequences.length = 7 := fun z hz => by
    obtain ⟨hz, hzy⟩ := List.mem_filter.1 hz
    obtain ⟨hzn, hzx⟩ := mem_others.1 hz
    exact length_consequences_move hn hx hyn hzn hyx hzx (of_decide_eq_true hzy)
  rw [List.flatMap_append, List.length_append, List.flatMap_map, length_flatMap_of_forall hmove,
    hthird]
  simp only [List.flatMap_cons, List.flatMap_nil, List.length_append, List.length_nil,
    length_consequences_moveToTable hn hx hyn hyx, length_consequences_moveFromTable hn hx hyn hyx]

/-- **The clauses of a blocks world are counted.** -/
theorem length_consequences_actions : ((actions n).flatMap Action.consequences).length =
    7 * n * (n - 1) * (n - 2) + 11 * n * (n - 1) := by
  have hblock : ∀ x ∈ List.range n, (((others n x).flatMap fun y =>
      ((others n x).filter fun z => z ≠ y).map (move n x y) ++
        [moveToTable n x y, moveFromTable n x y]).flatMap Action.consequences).length =
      (n - 1) * ((n - 2) * 7 + 11) := fun x hx => by
    have hx' := List.mem_range.1 hx
    rw [List.flatMap_assoc, length_flatMap_of_forall fun y hy => length_consequences_pair hn hx' hy,
      length_others hx']
  rw [actions, List.flatMap_assoc, length_flatMap_of_forall hblock, List.length_range]
  ring

/-! ## Start and goal -/

theorem size_initial : (initial n).positive.size = 2 * n := by
  have hground : ∀ x : Fin n, none ≠ some x := fun x => (Option.some_ne_none x).symm
  have hontable : ((List.finRange n).map fun x => standing n x none).Nodup :=
    (List.nodup_finRange n).map fun x y h =>
      ((standing_inj hn (hground x) (hground y)).1 h).1
  have hclear : ((List.finRange n).map fun x : Fin n => clear n x).Nodup :=
    (List.nodup_finRange n).map fun x y h => (clear_inj hn).1 h
  rw [FluentSet.size_eq_length (List.Nodup.append hontable hclear ?_) fun f => ?_]
  · simp [Nat.two_mul]
  · refine List.disjoint_left.2 fun f hf hf' => ?_
    obtain ⟨x, -, rfl⟩ := List.mem_map.1 hf
    obtain ⟨y, -, h⟩ := List.mem_map.1 hf'
    exact standing_ne_clear hn (hground x) h.symm
  · simp [mem_initial_iff, exists_or]

theorem size_goal : (goal n).positive.size = n := by
  have hgoal : ((List.finRange n).map fun x => standing n x (next x)).Nodup :=
    (List.nodup_finRange n).map fun x y h =>
      ((standing_inj hn (next_ne_self x) (next_ne_self y)).1 h).1
  rw [FluentSet.size_eq_length hgoal fun f => by simp [mem_goal_iff], List.length_map,
    List.length_finRange]

end Counts

/-! ## In one statement -/

theorem mem_fluentNames_iff {n : Nat} {name : String} : name ∈ fluentNames n ↔
    (∃ x < n, name = "ontable(" ++ blockName x ++ ")" ∨ name = "clear(" ++ blockName x ++ ")") ∨
      ∃ x < n, ∃ y < n, x ≠ y ∧ name = "on(" ++ blockName x ++ "," ++ blockName y ++ ")" := by
  simp only [fluentNames, List.mem_append, List.mem_map, List.mem_flatMap, List.mem_range,
    mem_others, and_assoc, and_or_left, exists_or, eq_comm (a := name)]
  exact or_congr_right <| exists_congr fun x => and_congr_right fun _ => exists_congr fun y =>
    and_congr_right fun _ => and_congr_left fun _ => ne_comm

theorem onName_mem_fluentNames_iff {n x y : Nat} (hx : x < n) (hy : y < n) :
    "on(" ++ blockName x ++ "," ++ blockName y ++ ")" ∈ fluentNames n ↔ x ≠ y := by
  rw [mem_fluentNames_iff]
  refine ⟨?_, fun hne => .inr ⟨x, hx, y, hy, hne, rfl⟩⟩
  rintro (⟨x', -, h | h⟩ | ⟨x', -, y', -, hne, h⟩)
  · simp [← String.toList_inj] at h
  · simp [← String.toList_inj] at h
  · obtain ⟨rfl, rfl⟩ := onName_inj h
    exact hne

/-- **The generator stops for nothing, and this is what it makes.**  As long as there is a variable
for each fluent and each action, blocks, fluents and actions have distinct names, there are so many
of them, and there are so many clauses. -/
theorem generate_census (n : Nat) (hsize : n * (n + 1) + n * n * (n - 1) ≤ Var.maxId) :
    ∃ p, generate n = .ok p ∧
      (Function.Injective blockName ∧ (∀ i < 26, (blockName i).toList = [Char.ofNat (65 + i)]) ∧
        ∀ i, 26 ≤ i → blockName i = "B" ++ toString i) ∧
      p.fluents.toList.Nodup ∧ (p.actions.toList.map Action.name).Nodup ∧
      p.numFluents = n * (n + 1) ∧ p.numActions = n * n * (n - 1) ∧
      p.initial.positive.size = 2 * n ∧ p.initialFullState.facts.size = 2 * n ∧
      p.goal.positive.size = n ∧ p.goal.negative.isEmpty = true ∧
      (∀ name, name ∈ p.fluents ↔
        (∃ x < n, name = "ontable(" ++ blockName x ++ ")" ∨ name = "clear(" ++ blockName x ++ ")") ∨
        ∃ x < n, ∃ y < n, x ≠ y ∧ name = "on(" ++ blockName x ++ "," ++ blockName y ++ ")") ∧
      (∀ x < n, ∀ y < n, "on(" ++ blockName x ++ "," ++ blockName y ++ ")" ∈ p.fluents ↔ x ≠ y) ∧
      ∃ r, Registry.ofProblem p = .ok r ∧
        ∀ maxVariables, n * (n + 1) + n * n * (n - 1) ≤ maxVariables →
          ∃ e, encode maxVariables p.actions.toList r = .ok e ∧
            e.clauses.length = 7 * n * (n - 1) * (n - 2) + 11 * n * (n - 1) := by
  have hn : n * (n + 1) ≤ UInt32.size :=
    Nat.le_trans (Nat.le_add_right _ _) (Nat.le_trans hsize (by decide))
  obtain ⟨p, hp, hworld⟩ := exists_generate n
  have hblocks : Function.Injective blockName ∧
      (∀ i < 26, (blockName i).toList = [Char.ofNat (65 + i)]) ∧
      ∀ i, 26 ≤ i → blockName i = "B" ++ toString i :=
    ⟨blockName_injective, fun i => toList_blockName_of_lt, fun i hi => if_neg (Nat.not_lt.2 hi)⟩
  have hactions : (p.actions.toList.map Action.name).Nodup := by
    rw [hworld.actions_eq]
    exact nodup_map_name_actions n
  have hinitial : p.initial.positive.size = 2 * n := by
    rw [hworld.initial_eq, size_initial hn]
  have hfull : p.initialFullState.facts.size = p.initial.positive.size :=
    FluentSet.size_eq_length p.initial.positive.nodup_toList fun f => State.mem_facts_ofInitial
  have hgoal : p.goal.positive.size = n ∧ p.goal.negative.isEmpty = true := by
    rw [hworld.goal_eq]
    exact ⟨size_goal hn, rfl⟩
  have hmem : ∀ name, name ∈ p.fluents ↔ name ∈ fluentNames n := fun name => by
    rw [← hworld.fluents_eq, Array.mem_toList_iff]
  have hcount : p.numFluents + p.numActions = n * (n + 1) + n * n * (n - 1) := by
    rw [hworld.numFluents_eq, hworld.numActions_eq]
  obtain ⟨r, hr⟩ := Registry.ofProblem_eq_ok_iff.2 (hcount ▸ hsize)
  refine ⟨p, hp, hblocks, p.names_nodup, hactions, hworld.numFluents_eq,
    hworld.numActions_eq, hinitial, hfull.trans hinitial, hgoal.1, hgoal.2,
    fun name => (hmem name).trans mem_fluentNames_iff,
    fun x hx y hy => (hmem _).trans (onName_mem_fluentNames_iff hx hy), r, hr, fun k hk => ?_⟩
  have hlimit : r.size ≤ k := by rwa [Registry.size_of_ofProblem hr, hcount]
  obtain ⟨e, he⟩ := encode_eq_ok_iff.2 ⟨hlimit, knowsAll_of_ofProblem hr⟩
  refine ⟨e, he, ?_⟩
  rw [length_clauses_of_encode he, hworld.actions_eq, length_consequences_actions hn]

/-- Of twenty-seven blocks the last one is named by its number. -/
theorem generate_census_twentyseven : 27 * (27 + 1) + 27 * 27 * (27 - 1) ≤ Var.maxId ∧
    ∃ p, generate 27 = .ok p ∧ p.numFluents = 756 ∧ p.numActions = 18954 ∧
      "on(Z,B26)" ∈ p.fluents ∧ "on(B26,B26)" ∉ p.fluents ∧
      ∃ r e, Registry.ofProblem p = .ok r ∧ encode 19710 p.actions.toList r = .ok e ∧
        e.clauses.length = 130572 := by
  obtain ⟨p, hp, -, -, -, hfluents, hactions, -, -, -, -, -, hon, r, hr, henc⟩ :=
    generate_census 27 (by decide)
  obtain ⟨e, he, hlength⟩ := henc 19710 (by decide)
  refine ⟨by decide, p, hp, hfluents, hactions, ?_, ?_, r, e, hr, he, hlength⟩
  · exact (hon 25 (by decide) 26 (by decide)).2 (by decide)
  · exact fun h => (hon 26 (by decide) 26 (by decide)).1 h rfl

end Blocks

end SnapshotPlan
