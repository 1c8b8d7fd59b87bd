import ConfTree.Proofs.Merge.Calls
import ConfTree.Proofs.Merge.Embedding

/-!
# Merging a configuration over itself

A section of the source is paired by its key, and for a section of the source no value is as good as
an empty one. For a section of the target it is not: it has no key that is ever looked for. So of
sections that can be told apart each is paired with itself, unless it has a match attribute without
a value (`find?_pairs_own`). Such a section is copied next to itself. The main statement,
`overrideBy_itself`, is that a merge of a configuration over itself succeeds, and changes nothing
exactly if there is no such section below the root.
-/

namespace ConfTree

open ConfTree.Configuration ConfTree.Text

variable {rules : Rules}

/-! ## Keys of siblings -/

/-- The section has a match attribute, and the first one has no value. -/
def NullKeyed (rules : Rules) (s : Shape) : Prop :=
  s.carries rules.keyName = true ∧ s.key? rules.keyName = none

/-- Sections of one name both have a match attribute, and the first ones have different values,
where no value counts as an empty one. -/
def KeysDiffer (rules : Rules) (s t : Shape) : Prop :=
  sameName s.name t.name = true → s.carries rules.keyName = true ∧ t.carries rules.keyName = true ∧
    (s.key? rules.keyName).getD "" ≠ (t.key? rules.keyName).getD ""

/-- Sibling sections have different keys, on all levels. -/
def Distinguished (rules : Rules) (s : Shape) : Prop :=
  ∀ t ∈ s.sections, t.children.Pairwise (KeysDiffer rules)

instance (rules : Rules) : DecidablePred (NullKeyed rules) := by
  unfold NullKeyed
  infer_instance

instance (rules : Rules) (s t : Shape) : Decidable (KeysDiffer rules s t) := by
  unfold KeysDiffer
  infer_instance

instance (rules : Rules) (s : Shape) : Decidable (Distinguished rules s) := by
  unfold Distinguished
  infer_instance

/-- Child sections are distinguished, too. -/
lemma Distinguished.child {s c : Shape} (h : Distinguished rules s) (hc : c ∈ s.children) :
    Distinguished rules c :=
  fun t ht => h t (Shape.mem_sections_of_child hc ht)

/-- A section pairs with itself unless its key has no value. -/
lemma pairs_self_iff {s : Shape} : s.pairs rules.keyName s = true ↔ ¬ NullKeyed rules s := by
  rw [Shape.pairs, sameName_refl, Bool.true_and, NullKeyed]
  cases s.carries rules.keyName with
  | false => simp
  | true => cases s.key? rules.keyName <;> simp

/-- A section does not pair with one that has another key. -/
lemma KeysDiffer.not_pairs {s t : Shape} (h : KeysDiffer rules s t) :
    s.pairs rules.keyName t = false := by
  by_contra pairs
  rw [Bool.not_eq_false, Shape.pairs, Bool.and_eq_true] at pairs
  obtain ⟨-, carries, differ⟩ := h pairs.1
  simp only [carries, Bool.not_true, Bool.false_or, beq_iff_eq] at pairs
  exact differ (by rw [pairs.2, Option.getD_some])

/-- The order of the sections does not count. -/
lemma KeysDiffer.symm {s t : Shape} (h : KeysDiffer rules s t) : KeysDiffer rules t s := by
  intro same
  obtain ⟨hs, ht, differ⟩ := h (sameName_symm same)
  exact ⟨ht, hs, differ.symm⟩

/-- What some section has that the first one has not, a section below it has. -/
lemma Shape.exists_sections_iff {P : Shape → Prop} {s : Shape} (h : ¬ P s) :
    (∃ t ∈ s.sections, P t) ↔ ∃ t ∈ s.descendants, P t := by
  constructor
  · rintro ⟨t, ht, holds⟩
    cases s
    rcases List.mem_cons.1 ht with rfl | ht
    · exact absurd holds h
    · exact ⟨t, ht, holds⟩
  · rintro ⟨t, ht, holds⟩
    exact ⟨t, mem_sections_of_mem_descendants ht, holds⟩

/-- Of siblings that can be told apart each is found by its own key, unless this has no value. -/
lemma find?_pairs_own {cs : List Shape} (differ : cs.Pairwise (KeysDiffer rules)) {c : Shape}
    (hc : c ∈ cs) :
    cs.find? (·.pairs rules.keyName c) = if NullKeyed rules c then none else some c := by
  induction cs with
  | nil => cases hc
  | cons x cs ih =>
    obtain ⟨first, rest⟩ := List.pairwise_cons.1 differ
    rcases List.mem_cons.1 hc with rfl | hm
    · split
      · rename_i null
        refine List.find?_eq_none.2 fun y hy => ?_
        rcases List.mem_cons.1 hy with rfl | hy
        · exact fun pairs => pairs_self_iff.1 pairs null
        · simp [(first y hy).symm.not_pairs]
      · rename_i keyed
        exact List.find?_cons_of_pos (pairs_self_iff.2 keyed)
    · rw [List.find?_cons_of_neg (by simp [(first c hm).not_pairs]), ih rest hm]

/-! ## Edits that add nodes -/

namespace Edit

variable {a : Configuration} {P Q : Prop}

/-- Where `P` holds the edit adds nodes to the configuration, and otherwise it succeeds and changes
nothing. -/
def AddsIff (P : Prop) (a : Configuration) (edit : Edit Unit) : Prop :=
  (¬ P ∧ edit.apply a = (.ok (), a)) ∨ (P ∧ a.nodes.size < (edit.apply a).2.nodes.size)

/-- The condition may be said in another way. -/
lemma AddsIff.congr {edit : Edit Unit} (h : AddsIff P a edit) (same : P ↔ Q) :
    AddsIff Q a edit := by
  rw [← propext same]
  exact h

/-- One edit after the other adds nodes if one of them does. -/
lemma AddsIff.bind {x y : Edit Unit} (hx : AddsIff P a x) (hy : AddsIff Q a y)
    (makes : Makes Change y) : AddsIff (P ∨ Q) a (x >>= fun _ => y) := by
  rcases hx with ⟨out, run⟩ | ⟨here, grows⟩
  · rw [AddsIff, apply_bind_ok run, or_iff_right out]
    exact hy
  · refine .inr ⟨.inl here, after_both (R := fun conf => a.nodes.size < conf.nodes.size) grows ?_⟩
    intro _ conf₁ grown
    exact grown.trans_le (Evolves.changes (makes conf₁)).size_le

/-- A copy of a section adds nodes. -/
lemma size_lt_copySubtree {target : Nat} {d : NodeData} (writable : a.readOnly = false)
    (h : a.live? target = some d) (sec : d.kind = .sectionKind) {t : Subtree} (named : t.Named) :
    a.nodes.size < ((copySubtree target t).apply a).2.nodes.size := by
  obtain ⟨_, name, value, attributes, children⟩ := t
  have added : (addSection target name value).apply a = (.ok a.nodes.size, _) :=
    apply_append writable h sec named.1
  have rest : Makes Change (copyAttributes a.nodes.size attributes >>= fun _ =>
      copySubtrees a.nodes.size children >>= fun _ => (pure a.nodes.size : Edit NodeId)) :=
    .bind (.copyAttributes _ _) fun _ => .bind (.copySubtrees _ _) fun _ => .pure _
  have grown := (Evolves.changes (rest (a.addNode .sectionKind target name value))).size_le
  rw [size_addNode] at grown
  rw [copySubtree, apply_bind_ok added]
  exact Nat.lt_of_succ_le grown

/-! ## One section over itself -/

variable (process : Host) in
mutual

/-- A section that a copy of itself is merged into gets new nodes exactly if a section below it has
a key without a value. -/
lemma mergeSection_itself (wf : a.WellFormed) (writable : a.readOnly = false)
    (appends : rules.appends = false) :
    ∀ (t : Subtree) {target : Nat} {d : NodeData}, TakenFrom a t →
    t.shape.AllAttributes (UndeclaredAttribute rules) → Distinguished rules t.shape →
    a.live? target = some d → d.kind = .sectionKind → a.shape target = t.shape →
    AddsIff (∃ s ∈ t.shape.descendants, NullKeyed rules s) a (mergeSection process rules a target t)
  | .mk id name value attributes children, target, d, taken, meet, apart, h, sec, same => by
    obtain ⟨-, good, -⟩ := taken.named wf
    obtain ⟨undeclared, literal⟩ := undeclared_iff.1 meet
    rw [← same] at undeclared literal
    obtain ⟨conf₁, conf₂, run₁, run₂, -, -, keep⟩ :=
      mergeOwn_spec (.mk id name value attributes children) wf writable h sec good
    rw [Subtree.value] at run₁
    rw [Subtree.attributes, keep (by rw [same, Shape.lay_self])] at run₂
    have declared := Shape.policy?_of_undeclared (Shape.allAttributes_iff.1 undeclared).1
    have rest := mergeSections_itself wf writable appends children (taken.child wf)
      (Shape.allAttributes_iff.1 meet).2
      (fun s hs => apart.child hs) h sec literal (congrArg Shape.children same)
      (apart _ (Shape.mem_sections_self _)) (fun _ hs => hs)
    have policy := (policyOf_literal process wf h (literal_iff.1 literal).1).2 declared
    rw [AddsIff, apply_mergeSection_all policy run₁ run₂]
    exact rest

/-- Child sections that copies of themselves are merged into get new nodes, or new ones beside them,
exactly if one of them or a section below them has a key without a value. -/
lemma mergeSections_itself (wf : a.WellFormed) (writable : a.readOnly = false)
    (appends : rules.appends = false) : ∀ (ts : List Subtree) {target : Nat} {d : NodeData}
    {cs : List Shape}, (∀ t ∈ ts, TakenFrom a t) →
    (∀ s ∈ Subtree.shapes ts, s.AllAttributes (UndeclaredAttribute rules)) →
    (∀ s ∈ Subtree.shapes ts, Distinguished rules s) →
    a.live? target = some d → d.kind = .sectionKind → Literal rules (a.shape target) →
    (a.shape target).children = cs → cs.Pairwise (KeysDiffer rules) → Subtree.shapes ts ⊆ cs →
    AddsIff (∃ s ∈ Shape.sectionsOf (Subtree.shapes ts), NullKeyed rules s) a
      (mergeSections process rules a target ts)
  | [], _, _, _, _, _, _, _, _, _, _, _, _ => .inl ⟨by simp [Subtree.shapes, Shape.sectionsOf], rfl⟩
  | t :: ts, target, d, cs, taken, meet, apart, h, sec, literal, children, differ, sub => by
    have takenFirst := taken t List.mem_cons_self
    have meetsFirst := meet _ List.mem_cons_self
    have own := find?_pairs_own differ (sub List.mem_cons_self)
    rw [← children, shape_eq wf h, Shape.children, List.find?_map] at own
    have paired := takenFirst.matchOf process wf wf appends h literal.children
      (literal_iff.1 (undeclared_iff.1 meetsFirst).2).1
    have first : AddsIff (∃ s ∈ t.shape.sections, NullKeyed rules s) a
        (mergeNext process rules a target t) := by
      by_cases null : NullKeyed rules t.shape
      · -- The section is not found, and a copy of it is added.
        rw [if_pos null, Option.map_eq_none_iff] at own
        refine .inr ⟨⟨_, Shape.mem_sections_self _, null⟩, ?_⟩
        rw [apply_mergeNext_none (paired.trans (congrArg Except.ok own))]
        exact after_both (R := fun conf => a.nodes.size < conf.nodes.size)
          (size_lt_copySubtree writable h sec (takenFirst.named wf)) fun _ _ grown => grown
      · rw [if_neg null, Option.map_eq_some_iff] at own
        obtain ⟨c, found, same⟩ := own
        have hc := List.mem_of_find?_eq_some found
        obtain ⟨e, live, kind, -⟩ := wf.listed target d _ c h hc
        have inner := mergeSection_itself wf writable appends t takenFirst meetsFirst
          (apart _ List.mem_cons_self) live
          kind same
        rw [AddsIff, apply_mergeNext_some (paired.trans (congrArg Except.ok found))]
        exact inner.congr (Shape.exists_sections_iff null).symm
    have rest := mergeSections_itself wf writable appends ts
      (fun x hx => taken x (List.mem_cons_of_mem _ hx))
      (fun s hs => meet s (List.mem_cons_of_mem _ hs))
      (fun s hs => apart s (List.mem_cons_of_mem _ hs)) h sec literal children differ
      fun s hs => sub (List.mem_cons_of_mem _ hs)
    rw [mergeSections_cons]
    refine (first.bind rest (.mergeSections process rules a target ts)).congr ?_
    rw [Subtree.shapes, Shape.sectionsOf]
    simp only [List.mem_append, or_and_right, exists_or]

end

end Edit

/-! ## A configuration over itself -/

namespace Configuration

variable {a : Configuration}

/-- Let no section declare a policy, no key have references, and sections of one name all have a
match attribute, with different values, where no value counts as an empty one. Then a merge of the
configuration over itself succeeds. If no first match attribute below the root is without a value,
then nothing changes, and otherwise nodes are added. -/
theorem overrideBy_itself (reach : Reachable a) (writable : a.readOnly = false)
    (appends : rules.appends = false) (undeclared : Undeclared rules (a.shape root))
    (literal : Literal rules (a.shape root)) (apart : Distinguished rules (a.shape root))
    (process : Host) :
    ∃ c, (Edit.overrideBy process rules a).apply a = (.ok (), c) ∧
      ((∀ s ∈ (a.shape root).descendants, ¬ NullKeyed rules s) → c = a) ∧
      ((∃ s ∈ (a.shape root).descendants, NullKeyed rules s) → a.nodes.size < c.nodes.size) := by
  have wf := reach.wellFormed
  obtain ⟨d, h, sec, -⟩ := wf.root
  have taken := takenFrom_subtree h sec
  have meet := undeclared_iff.2 ⟨undeclared, literal⟩
  have ok := Edit.mergeSection_undeclared process wf appends (a.subtree root) taken meet wf writable
    ((allAttributes_iff wf).2 meet) h sec
  rw [overrideBy_apply process wf h sec]
  refine ⟨_, Prod.ext ok rfl, ?_⟩
  rcases Edit.mergeSection_itself process wf writable appends (a.subtree root) taken meet apart h
    sec
    rfl with ⟨none, run⟩ | ⟨some, grows⟩
  · rw [run]
    exact ⟨fun _ => rfl, fun some => absurd some none⟩
  · refine ⟨fun none => ?_, fun _ => grows⟩
    obtain ⟨s, hs, null⟩ := some
    exact absurd null (none s hs)

/-- Sections with different keys, one of them empty, a section without one, and a root with a match
attribute without a value. -/
theorem overrideBy_itself_keyed :
    let a := (withRoot "base").operateAll
      [(.bare, .addAttribute 0 "name" none), (.bare, .addSection 0 "server" (some "1")),
        (.bare, .addAttribute 2 "Name" (some "x")), (.bare, .addSection 0 "SERVER" none),
        (.bare, .addAttribute 4 "name" (some "")), (.bare, .addSection 4 "log" none)]
    (Edit.overrideBy .bare .standard a).apply a = (.ok (), a) := by
  intro a
  have reach : Reachable a := (Reachable.withRoot "base").operateAll _ (by simp [Operation.others])
  have undeclared : Undeclared .standard (a.shape root) := by decide +kernel
  have literal : Literal .standard (a.shape root) := by decide +kernel
  have apart : Distinguished .standard (a.shape root) := by decide +kernel
  obtain ⟨c, run, same, -⟩ :=
    overrideBy_itself reach (by decide +kernel) rfl undeclared literal apart .bare
  rw [run, same (by decide +kernel)]

/-- A section with a match attribute without a value is the only one of its name, but it is not
paired with itself, and a copy of it is added. -/
theorem not_overrideBy_itself_null :
    let a := (withRoot "base").operateAll
      [(.bare, .addSection 0 "s" none), (.bare, .addAttribute 1 "name" none)]
    Reachable a ∧ a.readOnly = false ∧ Undeclared .standard (a.shape root) ∧
      Literal .standard (a.shape root) ∧ Distinguished .standard (a.shape root) ∧
      ((((Edit.overrideBy .bare .standard a).apply a).2.shape root).children.map
        fun s => (s.name, s.attributes)) = [("s", [("name", none)]), ("s", [("name", none)])] ∧
      (Edit.overrideBy .bare .standard a).apply a ≠ (.ok (), a) := by
  intro a
  have reach : Reachable a := (Reachable.withRoot "base").operateAll _ (by simp [Operation.others])
  have doubled : ((((Edit.overrideBy .bare .standard a).apply a).2.shape root).children.map
      fun s => (s.name, s.attributes)) = [("s", [("name", none)]), ("s", [("name", none)])] := by
    decide +kernel
  refine ⟨reach, by decide +kernel, by decide +kernel, by decide +kernel, by decide +kernel,
    doubled, fun same => ?_⟩
  have single : (a.shape root).children.map (fun s => (s.name, s.attributes)) =
      [("s", [("name", none)])] := by decide +kernel
  rw [same, single] at doubled
  simp at doubled

end Configuration

end ConfTree
