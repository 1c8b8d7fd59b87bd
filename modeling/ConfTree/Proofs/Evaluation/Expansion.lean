import ConfTree.Proofs.Evaluation.Plain
import ConfTree.Proofs.Tree.Lookup
import Mathlib.Data.Fintype.EquivFin
import Mathlib.Data.Set.Finite.Lattice

/-!
# Expansions

The value of a node expands to a text in which every reference gives way to the expansion of its
target. `Expands` follows the references as deep as they go, without any limit, and counts how deep
they nest and how many of them there are. A node has at most one expansion (`Expands.unique`), and
it has one exactly if no cycle of references can be reached from it (`exists_expands`,
`Expands.acyclic`).
-/

namespace ConfTree

open ConfTree.Configuration Relation

variable {process : Host} {conf : Configuration}

mutual

/-- The node has the given height and weight, and its value expands to the given one. A template is
one higher than the highest of its targets. -/
inductive Expands (process : Host) (conf : Configuration) :
    NodeId → Nat → Nat → Option String → Prop where
  | literal {id} :
    (∀ raw ∈ conf.verbatim? id, hasReference raw.toList = false) →
    Expands process conf id 0 0 (conf.verbatim? id)
  | template {id d raw height weight cs} :
    conf.live? id = some d →
    d.value = some raw →
    hasReference raw.toList = true →
    Joins process conf (contextOf id d) (pieces raw.toList) height weight cs →
    Expands process conf id (height + 1) weight (some (String.ofList cs))

/-- The pieces, relative to a section, expand to the given text. The height is that of the highest
target, and each reference weighs one more than its target. -/
inductive Joins (process : Host) (conf : Configuration) :
    Option NodeId → List Piece → Nat → Nat → List Char → Prop where
  | nil {context} :
    Joins process conf context [] 0 0 []
  | char {context c rest height weight cs} :
    Joins process conf context rest height weight cs →
    Joins process conf context (.char c :: rest) height weight (c :: cs)
  | escape {context rest height weight cs} :
    Joins process conf context rest height weight cs →
    Joins process conf context (.escape :: rest) height weight ('$' :: '(' :: cs)
  | absent {context body rest height weight cs} :
    conf.targetOf process context body = none →
    Joins process conf context rest height weight cs →
    Joins process conf context (.reference body :: rest) height (1 + weight) cs
  | found {context body id rest height weight value height' weight' cs} :
    conf.targetOf process context body = some id →
    Expands process conf id height weight value →
    Joins process conf context rest height' weight' cs →
    Joins process conf context (.reference body :: rest) (max height height')
      (1 + weight + weight') ((value.getD "").toList ++ cs)

end

/-! ## Uniqueness -/

mutual

/-- A node has at most one expansion. -/
lemma Expands.unique {id h w v h' w' v'} :
    Expands process conf id h w v → Expands process conf id h' w' v' →
      h = h' ∧ w = w' ∧ v = v'
  | .literal plain, k => by
    cases k with
    | literal => exact ⟨rfl, rfl, rfl⟩
    | template live value opens _ =>
      rw [plain _ ((verbatim?_eq live).trans value)] at opens
      cases opens
  | .template live value opens joins, k => by
    cases k with
    | literal plain =>
      rw [plain _ ((verbatim?_eq live).trans value)] at opens
      cases opens
    | template live' value' _ joins' =>
      rw [live] at live'
      cases live'
      rw [value] at value'
      cases value'
      obtain ⟨rfl, rfl, rfl⟩ := joins.unique joins'
      exact ⟨rfl, rfl, rfl⟩

/-- Pieces have at most one expansion. -/
lemma Joins.unique {context ps h w cs h' w' cs'} :
    Joins process conf context ps h w cs → Joins process conf context ps h' w' cs' →
      h = h' ∧ w = w' ∧ cs = cs'
  | .nil, k => by
    cases k
    exact ⟨rfl, rfl, rfl⟩
  | .char rest, .char rest' => by
    obtain ⟨rfl, rfl, rfl⟩ := rest.unique rest'
    exact ⟨rfl, rfl, rfl⟩
  | .escape rest, .escape rest' => by
    obtain ⟨rfl, rfl, rfl⟩ := rest.unique rest'
    exact ⟨rfl, rfl, rfl⟩
  | .absent gone rest, k => by
    cases k with
    | absent _ rest' =>
      obtain ⟨rfl, rfl, rfl⟩ := rest.unique rest'
      exact ⟨rfl, rfl, rfl⟩
    | found target =>
      rw [gone] at target
      cases target
  | .found target first rest, k => by
    cases k with
    | absent gone =>
      rw [gone] at target
      cases target
    | found target' first' rest' =>
      rw [target] at target'
      cases target'
      obtain ⟨rfl, rfl, rfl⟩ := first.unique first'
      obtain ⟨rfl, rfl, rfl⟩ := rest.unique rest'
      exact ⟨rfl, rfl, rfl⟩

end

/-! ## Cycles have no expansion -/

/-- The target of a reference among the pieces has an expansion that is not higher. -/
lemma Joins.target {context body b} : ∀ {ps h w cs}, Joins process conf context ps h w cs →
    .reference body ∈ ps → conf.targetOf process context body = some b →
      ∃ h' w' v, Expands process conf b h' w' v ∧ h' ≤ h
  | _, _, _, _, .nil, hp, _ => by cases hp
  | _, _, _, _, .char rest, hp, target => by
    simp only [List.mem_cons, reduceCtorEq, false_or] at hp
    exact rest.target hp target
  | _, _, _, _, .escape rest, hp, target => by
    simp only [List.mem_cons, reduceCtorEq, false_or] at hp
    exact rest.target hp target
  | _, _, _, _, .absent gone rest, hp, target => by
    rcases List.mem_cons.1 hp with e | hp
    · cases e
      rw [gone] at target
      cases target
    · exact rest.target hp target
  | _, _, _, _, .found target' first rest, hp, target => by
    rcases List.mem_cons.1 hp with e | hp
    · cases e
      rw [target'] at target
      cases target
      exact ⟨_, _, _, first, Nat.le_max_left _ _⟩
    · obtain ⟨h', w', v, expands, le⟩ := rest.target hp target
      exact ⟨h', w', v, expands, Nat.le_trans le (Nat.le_max_right _ _)⟩

/-- A reference leads to a node that is less high. -/
lemma Expands.refers {a b h w v} (expands : Expands process conf a h w v)
    (edge : conf.Refers process a b) : ∃ h' w' v', Expands process conf b h' w' v' ∧ h' < h := by
  obtain ⟨d, raw, body, live, value, hp, target⟩ := refers_iff.1 edge
  cases expands with
  | literal plain =>
    -- A text without references has no piece that is one.
    rw [pieces_of_plain (plain _ ((verbatim?_eq live).trans value)), List.mem_map] at hp
    obtain ⟨c, -, e⟩ := hp
    cases e
  | template live' value' _ joins =>
    rw [live] at live'
    cases live'
    rw [value] at value'
    cases value'
    obtain ⟨h', w', v', expands, le⟩ := joins.target hp target
    exact ⟨h', w', v', expands, Nat.lt_succ_of_le le⟩

/-- References lead down. -/
lemma Expands.transGen {a b h w v} (expands : Expands process conf a h w v)
    (path : TransGen (conf.Refers process) a b) :
    ∃ h' w' v', Expands process conf b h' w' v' ∧ h' < h := by
  induction path with
  | single edge => exact expands.refers edge
  | tail _ edge ih =>
    obtain ⟨h', w', v', expands', lt⟩ := ih
    obtain ⟨h'', w'', v'', expands'', lt'⟩ := expands'.refers edge
    exact ⟨h'', w'', v'', expands'', Nat.lt_trans lt' lt⟩

/-- From a node with an expansion no cycle can be reached. -/
lemma Expands.acyclic {id m h w v} (expands : Expands process conf id h w v)
    (reaches : conf.Reaches process id m) : ¬ TransGen (conf.Refers process) m m := by
  intro cycle
  -- All around the cycle the height would go down.
  obtain ⟨h', w', v', expands', -⟩ := expands.transGen (cycle.trans_right reaches)
  obtain ⟨h'', w'', v'', expands'', lt⟩ := expands'.transGen cycle
  rw [(expands'.unique expands'').1] at lt
  exact Nat.lt_irrefl _ lt

/-! ## All else has an expansion -/

/-- A relation without cycles on finitely many members can be followed down only so far. -/
lemma wellFounded_of_acyclic {α : Type} [Finite α] {R : α → α → Prop}
    (acyclic : ∀ x, ¬ TransGen R x x) : WellFounded fun y x => R x y := by
  have : IsTrans α fun y x => TransGen R x y := ⟨fun _ _ _ h k => k.trans h⟩
  have : Std.Irrefl fun y x => TransGen R x y := ⟨acyclic⟩
  have order : WellFounded fun y x => TransGen R x y := Finite.wellFounded_of_trans_of_irrefl _
  exact Subrelation.wf .single order

/-- A property that a member has if all have it that it leads to holds where no cycle can be
reached, if only finitely many members lead anywhere. -/
lemma of_acyclic {α : Type} {R : α → α → Prop} {P : α → Prop} (finite : {x | ∃ y, R x y}.Finite)
    (passes : ∀ x, (∀ y, R x y → P y) → P x) {a : α}
    (acyclic : ∀ m, ReflTransGen R a m → ¬ TransGen R m m) : P a := by
  have : Finite { x // ReflTransGen R a x ∧ ∃ y, R x y } :=
    (finite.subset fun _ h => h.2).to_subtype
  have order : WellFounded fun y x : { x // ReflTransGen R a x ∧ ∃ y, R x y } => R x.1 y.1 :=
    wellFounded_of_acyclic fun x cycle => acyclic x.1 x.2.1 (cycle.lift _ fun _ _ h => h)
  have reached : ∀ x : { x // ReflTransGen R a x ∧ ∃ y, R x y }, P x.1 := by
    intro x
    induction x using order.induction with
    | _ x ih =>
      refine passes _ fun y edge => ?_
      by_cases leads : ∃ z, R y z
      · exact ih ⟨y, x.2.1.tail edge, leads⟩ edge
      · exact passes y fun z edge => absurd ⟨z, edge⟩ leads
  by_cases leads : ∃ y, R a y
  · exact reached ⟨a, .refl, leads⟩
  · exact passes a fun y edge => absurd ⟨y, edge⟩ leads

/-- Plain pieces have an expansion if the targets of their references have one. -/
lemma exists_joins {context : Option NodeId} {ps : List Piece}
    (plain : ∀ p ∈ ps, p.isPlain = true)
    (targets : ∀ body b, .reference body ∈ ps → conf.targetOf process context body = some b →
      ∃ h w v, Expands process conf b h w v) :
    ∃ h w cs, Joins process conf context ps h w cs := by
  induction ps with
  | nil => exact ⟨0, 0, [], .nil⟩
  | cons p ps ih =>
    obtain ⟨h, w, cs, rest⟩ := ih (fun q hq => plain q (List.mem_cons_of_mem _ hq))
      fun body b hp => targets body b (List.mem_cons_of_mem _ hp)
    cases p with
    | char c => exact ⟨_, _, _, .char rest⟩
    | escape => exact ⟨_, _, _, .escape rest⟩
    | unclosed => cases plain _ List.mem_cons_self
    | reference body =>
      cases target : conf.targetOf process context body with
      | none => exact ⟨_, _, _, .absent target rest⟩
      | some b =>
        obtain ⟨h', w', v, first⟩ := targets body b List.mem_cons_self target
        exact ⟨_, _, _, .found target first rest⟩

/-- A node has an expansion if the nodes that it refers to have one. -/
lemma exists_expands_of_refers (plain : conf.PlainTemplates) {id : NodeId}
    (targets : ∀ b, conf.Refers process id b → ∃ h w v, Expands process conf b h w v) :
    ∃ h w v, Expands process conf id h w v := by
  by_cases opens : ∃ raw ∈ conf.verbatim? id, hasReference raw.toList = true
  · obtain ⟨raw, hraw, opens⟩ := opens
    obtain ⟨d, live, value⟩ := Option.bind_eq_some_iff.1 hraw
    obtain ⟨h, w, cs, joins⟩ := exists_joins (plain.pieces live value) fun body b hp target =>
      targets b (refers_iff.2 ⟨d, raw, body, live, value, hp, target⟩)
    exact ⟨_, _, _, .template live value opens joins⟩
  · refine ⟨_, _, _, .literal fun raw hraw => ?_⟩
    rw [Bool.eq_false_iff]
    exact fun h => opens ⟨raw, hraw, h⟩

/-- Only nodes of the arena refer to others. -/
lemma finite_refers : {a | ∃ b, conf.Refers process a b}.Finite := by
  refine (Set.finite_lt_nat conf.nodes.size).subset ?_
  rintro a ⟨b, edge⟩
  obtain ⟨d, -, -, live, -⟩ := refers_iff.1 edge
  exact lt_size_of_live live

/-- A node from which no cycle can be reached has an expansion. -/
lemma exists_expands (plain : conf.PlainTemplates) {id : NodeId}
    (acyclic : ∀ m, conf.Reaches process id m → ¬ TransGen (conf.Refers process) m m) :
    ∃ h w v, Expands process conf id h w v :=
  of_acyclic finite_refers (fun _ => exists_expands_of_refers plain) acyclic

end ConfTree
