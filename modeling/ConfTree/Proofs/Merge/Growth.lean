import ConfTree.Proofs.Merge.Beside
import ConfTree.Proofs.Merge.Guarded

/-!
# Merges that replace nothing

A merge loses something of the target only where it replaces a section. `Extends` says of two
configurations that the second one has all that the first one has, and what is new comes last in its
list. The condition `P` on attributes, which the source has to meet as well, keeps out the policy
`replace` at every moment of the merge, also where the source changes the policies of the target. So
whatever a merge does before it ends, in success or in an error, only extends the target
(`extends_mergeSection`, `overrideBy_extends`).
-/

namespace ConfTree

open ConfTree.Configuration ConfTree.Text

/-! ## Conditions on attributes -/

/-- The condition does not tell names of different case apart, and what meets it is no reason to
replace a section. -/
structure Sparing (rules : Rules) (P : String × Option String → Prop) : Prop where
  respects : ∀ {m n : String} {v : Option String}, sameName m n = true → P (n, v) → P (m, v)
  spares : ∀ {a : String × Option String}, P a → sameName a.1 rules.policyName = true →
    ∀ v ∈ a.2, hasReference v.toList = false ∧ fold (trim v) ≠ "replace"

/-- If the attribute declares a policy, then this is a plain text, and not `replace`. -/
def SparingAttribute (rules : Rules) (a : String × Option String) : Prop :=
  sameName a.1 rules.policyName = true →
    ∀ v ∈ a.2, hasReference v.toList = false ∧ fold (trim v) ≠ "replace"

instance (rules : Rules) : DecidablePred (SparingAttribute rules) := by
  unfold SparingAttribute
  infer_instance

/-- A sparing attribute is no reason to replace a section. -/
lemma sparing_sparingAttribute (rules : Rules) : Sparing rules (SparingAttribute rules) where
  respects same h policy := h (sameName_trans (sameName_symm same) policy)
  spares h policy := h policy

/-- Only the word `replace` asks for a replacement. -/
lemma Policy.ofText?_ne_replace {text : String} (h : fold (trim text) ≠ "replace") :
    Policy.ofText? text ≠ some .replace := by
  unfold Policy.ofText?
  dsimp only
  rw [if_neg h]
  repeat' split
  all_goals simp

namespace Configuration

variable {P : String × Option String → Prop} {conf conf' conf'' : Configuration} {rules : Rules}

/-- All attributes of the configuration meet the condition. -/
def AllAttributes (P : String × Option String → Prop) (conf : Configuration) : Prop :=
  ∀ (x : Nat) d, conf.live? x = some d → d.kind = .attributeKind → P (d.name, d.value)

instance (P : String × Option String → Prop) [DecidablePred P] (conf : Configuration) :
    Decidable (conf.AllAttributes P) :=
  decidable_of_iff
    (∀ x < conf.nodes.size, ∀ d ∈ conf.live? x, d.kind = .attributeKind → P (d.name, d.value))
    ⟨fun h x d hx => h x (lt_size_of_live hx) d hx, fun h x _ d hd => h x d hd⟩

/-- What the child sections of a section have from it, all sections below it have. -/
lemma Below.hereditary {Q : Shape → Prop} (wf : conf.WellFormed)
    (down : ∀ {s c : Shape}, Q s → c ∈ s.children → Q c) {top id : Nat} {d : NodeData}
    (h : conf.Below top id) (live : conf.live? id = some d) (sec : d.kind = .sectionKind)
    (holds : Q (conf.shape top)) : Q (conf.shape id) := by
  induction h generalizing d with
  | self => exact holds
  | step he hp _ ih =>
    rw [live] at he
    cases he
    obtain ⟨-, pd, hpd, sec', -⟩ := wf.parent live hp
    have hm := wf.mem_entries live hp hpd
    rw [sec] at hm
    refine down (ih hpd sec') ?_
    rw [shape_eq wf hpd]
    exact List.mem_map_of_mem hm

/-- What all attributes of the arena meet, those of the shape of a section meet. -/
lemma AllAttributes.shape (wf : conf.WellFormed) (all : conf.AllAttributes P) {id : Nat}
    {d : NodeData} (h : conf.live? id = some d) : (conf.shape id).AllAttributes P := by
  -- The entries of the section come after it, and the arena is finite.
  induction hn : conf.nodes.size - id using Nat.strongRecOn generalizing id d with
  | ind n ih =>
    rw [shape_eq wf h]
    refine Shape.allAttributes_iff.2 ⟨fun a ha => ?_, fun s hs => ?_⟩
    · obtain ⟨x, hx, rfl⟩ := List.mem_map.1 ha
      obtain ⟨e, live, kind, -⟩ := wf.listed id d _ x h hx
      rw [pairOf_eq live]
      exact all x e live kind
    · obtain ⟨x, hx, rfl⟩ := List.mem_map.1 hs
      obtain ⟨e, live, -⟩ := wf.listed id d _ x h hx
      have := wf.lt_of_mem_entries h hx
      have := lt_size_of_live h
      exact ih _ (by omega) live rfl

/-- The attributes of the arena are those of the shape of the root. -/
lemma allAttributes_iff (wf : conf.WellFormed) :
    conf.AllAttributes P ↔ (conf.shape root).AllAttributes P := by
  obtain ⟨r, hr, -⟩ := wf.root
  refine ⟨fun all => all.shape wf hr, fun all x d hx kind => ?_⟩
  have other : x ≠ root := by
    rintro rfl
    obtain ⟨e, he, sec, -⟩ := wf.root
    rw [hx] at he
    cases he
    rw [kind] at sec
    cases sec
  obtain ⟨p, pd, parent, -, live, sec, -⟩ := wf.owned x d hx other
  have hm := wf.mem_entries hx parent live
  rw [kind] at hm
  have inside : (conf.shape p).AllAttributes P := (wf.below_root live).hereditary wf
    (fun h hc => h.child hc) live sec all
  have own := (Shape.allAttributes_iff.1 inside).1
  rw [← pairOf_eq hx]
  refine own _ ?_
  rw [shape_eq wf live]
  exact List.mem_map_of_mem hm

/-- No section of the configuration has the policy `replace`. -/
lemma policyOf_ne_replace (sparing : Sparing rules P) (process : Host) (wf : conf.WellFormed)
    (all : conf.AllAttributes P) (id : NodeId) :
    conf.policyOf process rules id ≠ .ok .replace := by
  intro replaced
  rw [policyOf] at replaced
  cases found : conf.attribute? id rules.policyAttribute with
  | none =>
    rw [found] at replaced
    cases replaced
  | some x =>
    obtain ⟨e, live, kind, -, named⟩ := live_attribute? wf found
    have plain := sparing.spares (all x e live kind) named
    have value : conf.verbatim? x = e.value := verbatim?_eq live
    have literal : ∀ v ∈ conf.verbatim? x, hasReference v.toList = false := fun v hv =>
      (plain v (value ▸ hv)).1
    have evaluated : conf.valueOf? process (some x) = .ok e.value :=
      (value?_literal literal process).trans (congrArg Except.ok value)
    rw [found, evaluated, ok_bind] at replaced
    cases hv : e.value with
    | none =>
      rw [hv] at replaced
      cases replaced
    | some v =>
      have other := Policy.ofText?_ne_replace (plain v hv).2
      rw [hv] at replaced
      dsimp only at replaced
      split at replaced
      · rename_i policy read
        cases replaced
        exact other read
      · cases replaced

/-! ## Configurations that only grew -/

/-- The second configuration has every node that the first one has, in the same place, and what its
lists have besides comes last and is new. -/
structure Extends (P : String × Option String → Prop) (before after : Configuration) : Prop where
  wellFormed : after.WellFormed
  allAttributes : after.AllAttributes P
  size : before.nodes.size ≤ after.nodes.size
  kept : ∀ (id : Nat) d, before.live? id = some d →
    ∃ e, after.live? id = some e ∧ e.name = d.name ∧ e.kind = d.kind ∧ e.parent = d.parent ∧
      ∀ k, ∃ new, e.entries k = d.entries k ++ new ∧ ∀ x ∈ new, before.nodes.size ≤ x

namespace Extends

/-- A configuration extends itself. -/
lemma refl (wf : conf.WellFormed) (all : conf.AllAttributes P) : Extends P conf conf :=
  ⟨wf, all, Nat.le_refl _, fun _ d h =>
    ⟨d, h, rfl, rfl, rfl, fun _ => ⟨[], by simp, List.forall_mem_nil _⟩⟩⟩

/-- Extensions add up. -/
lemma trans (h : Extends P conf conf') (k : Extends P conf' conf'') : Extends P conf conf'' := by
  refine ⟨k.wellFormed, k.allAttributes, h.size.trans k.size, fun id d hd => ?_⟩
  obtain ⟨e, he, name, kind, parent, entries⟩ := h.kept id d hd
  obtain ⟨f, hf, name', kind', parent', entries'⟩ := k.kept id e he
  refine ⟨f, hf, name'.trans name, kind'.trans kind, parent'.trans parent, fun l => ?_⟩
  obtain ⟨new, old, fresh⟩ := entries l
  obtain ⟨more, old', fresh'⟩ := entries' l
  refine ⟨new ++ more, by rw [old', old, List.append_assoc], fun x hx => ?_⟩
  rcases List.mem_append.1 hx with hx | hx
  · exact fresh x hx
  · exact h.size.trans (fresh' x hx)

/-- A section stays one. -/
lemma live_section (h : Extends P conf conf') {id : Nat} {d : NodeData}
    (live : conf.live? id = some d) (sec : d.kind = .sectionKind) :
    ∃ e, conf'.live? id = some e ∧ e.kind = .sectionKind := by
  obtain ⟨e, he, -, kind, -⟩ := h.kept id d live
  exact ⟨e, he, kind.trans sec⟩

/-- A new node extends a configuration. -/
lemma addNode (wf : conf.WellFormed) (all : conf.AllAttributes P) {parent : Nat} {pd : NodeData}
    {kind : Kind} {name : String} {value : Option String} (h : conf.live? parent = some pd)
    (sec : pd.kind = .sectionKind) (good : GoodName name)
    (meets : kind = .attributeKind → P (name, value)) :
    Extends P conf (conf.addNode kind parent name value) := by
  refine ⟨wf.addNode h sec good, fun x e he attr => ?_, ?_, fun id d hd => ?_⟩
  · -- All attributes but the new one were there before, with their names and values.
    by_cases new : x = conf.nodes.size
    · rw [new, live?_addNode_new h] at he
      cases he
      exact meets ((kind_new true _).symm.trans attr)
    · have other : x ≠ parent := by
        rintro rfl
        rw [live?_addNode_parent h] at he
        cases he
        rw [NodeData.kind_push, sec] at attr
        cases attr
      rw [live?_addNode_of_ne h new other] at he
      exact all x e he attr
  · simp [Configuration.addNode, modifyNode]
  · obtain ⟨e, he, kind', parent', name', entries⟩ := live?_addNode_old h sec hd
    refine ⟨e, he, name', kind', parent', fun l => ?_⟩
    rw [entries]
    split
    · exact ⟨_, rfl, by simp⟩
    · exact ⟨[], by simp, List.forall_mem_nil _⟩

/-- Another value extends a configuration. -/
lemma replaceValue (wf : conf.WellFormed) (all : conf.AllAttributes P) {id : Nat} {d : NodeData}
    {value : Option String} (h : conf.live? id = some d)
    (meets : d.kind = .attributeKind → P (d.name, value)) :
    Extends P conf (conf.replaceValue id value) := by
  refine ⟨wf.replaceValue id value, fun x e he attr => ?_, ?_, fun x e he => ?_⟩
  · by_cases same : id = x
    · subst same
      rw [live?_replaceValue_self h] at he
      cases he
      exact meets attr
    · rw [live?_replaceValue, if_neg same] at he
      exact all x e he attr
  · simp [Configuration.replaceValue, modifyNode]
  · rw [live?_replaceValue]
    split
    · rw [he]
      refine ⟨_, rfl, rfl, rfl, rfl, fun k => ⟨[], ?_, List.forall_mem_nil _⟩⟩
      rw [List.append_nil]
      cases k <;> rfl
    · exact ⟨e, he, rfl, rfl, rfl, fun _ => ⟨[], by simp, List.forall_mem_nil _⟩⟩

end Extends

end Configuration

/-! ## Copies and attributes -/

namespace Edit

variable {P : String × Option String → Prop} {a conf source : Configuration} {rules : Rules}
  {process : Host} {target : Nat} {td : NodeData}

/-- What holds after an edit, and is kept by another one, holds after both in a row. -/
lemma after_both {α β : Type} {R : Configuration → Prop} {x : Edit α} {f : α → Edit β}
    (first : R (x.apply conf).2) (rest : ∀ r conf₁, R conf₁ → R ((f r).apply conf₁).2) :
    R ((x >>= f).apply conf).2 := by
  refine after_bind (fun e conf₁ run => ?_) fun r conf₁ run => rest r conf₁ ?_
  · rw [run] at first
    exact first
  · rw [run] at first
    exact first

/-- To append a node is to extend. -/
lemma extends_append {kind : Kind} {name : String} (value : Option String) (good : GoodName name)
    (meets : kind = .attributeKind → P (name, value)) (parent : NodeId) :
    Keeps (Extends P a) (append kind parent name value) fun _ => True := by
  refine .checked fun conf stored grown h => ⟨?_, trivial⟩
  obtain ⟨-, trimmed, -, pd, hp, sec⟩ := appendable_iff.1 h
  -- A good name is stored as it is.
  rw [good.2] at trimmed
  subst trimmed
  exact grown.trans (.addNode grown.wellFormed grown.allAttributes hp sec good meets)

/-- To copy attributes is to extend. -/
lemma extends_copyAttributes {attributes : List Attribute}
    (good : ∀ b ∈ attributes, GoodName b.name)
    (meet : ∀ b ∈ attributes.map Attribute.pair, P b) (parent : NodeId) :
    Keeps (Extends P a) (copyAttributes parent attributes) fun _ => True := by
  induction attributes with
  | nil => exact .pure trivial
  | cons b attributes ih =>
    refine .bind (extends_append b.value (good b List.mem_cons_self) (fun _ => ?_) parent)
      fun _ _ => ih ?_ ?_
    · exact meet _ List.mem_cons_self
    · exact fun c hc => good c (List.mem_cons_of_mem _ hc)
    · exact fun c hc => meet c (List.mem_cons_of_mem _ hc)

mutual

/-- A copy of a subtree extends a configuration, however it ends. -/
lemma extends_copySubtree : ∀ {t : Subtree} (parent : NodeId), t.Named → t.shape.AllAttributes P →
    Keeps (Extends P a) (copySubtree parent t) fun _ => True
  | .mk _ name value attributes children, parent, ⟨good, goodAttributes, goodChildren⟩, meet => by
    obtain ⟨own, rest⟩ := Shape.allAttributes_iff.1 meet
    rw [copySubtree]
    refine .bind (extends_append value good nofun parent) fun id _ => ?_
    refine .bind (extends_copyAttributes goodAttributes own id) fun _ _ => ?_
    exact .bind (extends_copySubtrees id goodChildren rest) fun _ _ => .pure trivial

/-- To copy trees is to extend. -/
lemma extends_copySubtrees : ∀ {ts : List Subtree} (parent : NodeId), Subtree.AllNamed ts →
    (∀ c ∈ Subtree.shapes ts, c.AllAttributes P) →
    Keeps (Extends P a) (copySubtrees parent ts) fun _ => True
  | [], _, _, _ => .pure trivial
  | t :: ts, parent, ⟨first, rest⟩, meet => by
    rw [copySubtrees]
    refine .bind (extends_copySubtree parent first (meet _ List.mem_cons_self)) fun _ _ => ?_
    exact extends_copySubtrees parent rest fun c hc => meet c (List.mem_cons_of_mem _ hc)

end

/-- A value that is set extends a configuration, also a frozen one. -/
lemma extends_setValue (wf : conf.WellFormed) (all : conf.AllAttributes P) {id : Nat}
    {d : NodeData} {value : Option String} (h : conf.live? id = some d)
    (meets : d.kind = .attributeKind → P (d.name, value)) :
    Extends P conf ((setValue id value).apply conf).2 := by
  cases writable : conf.readOnly with
  | true =>
    have same : ((setValue id value).apply conf).2 = conf :=
      Makes.frozen (.setValue id value) writable rfl
    rw [same]
    exact .refl wf all
  | false =>
    rw [apply_setValue writable h]
    exact .replaceValue wf all h meets

/-- To merge a value is to extend. -/
lemma extends_mergeValue (wf : conf.WellFormed) (all : conf.AllAttributes P)
    (h : conf.live? target = some td) (sec : td.kind = .sectionKind) (value : Option String) :
    Extends P conf ((mergeValue target value).apply conf).2 := by
  rw [mergeValue, apply_bind_ok apply_get]
  split
  · refine extends_setValue wf all h fun attr => ?_
    rw [sec] at attr
    cases attr
  · exact .refl wf all

/-- Attributes that are laid over those of a section extend a configuration, however that ends. -/
lemma extends_mergeAttributes
    (respects : ∀ {m n : String} {v : Option String}, sameName m n = true → P (n, v) → P (m, v))
    {attributes : List Attribute} (good : ∀ b ∈ attributes, GoodName b.name)
    (meet : ∀ b ∈ attributes.map Attribute.pair, P b)
    (seen : List String) (wf : conf.WellFormed) (all : conf.AllAttributes P)
    (h : conf.live? target = some td) (sec : td.kind = .sectionKind) :
    Extends P conf ((mergeAttributes target seen attributes).apply conf).2 := by
  induction attributes generalizing seen conf td with
  | nil => exact .refl wf all
  | cons b attributes ih =>
    have goodFirst := good b List.mem_cons_self
    have meetsFirst : P (b.name, b.value) := meet _ List.mem_cons_self
    have rest : ∀ {seen conf₁}, Extends P conf conf₁ →
        Extends P conf ((mergeAttributes target seen attributes).apply conf₁).2 := by
      intro seen conf₁ first
      obtain ⟨d₁, h₁, sec₁⟩ := first.live_section h sec
      exact first.trans (ih (fun c hc => good c (List.mem_cons_of_mem _ hc))
        (fun c hc => meet c (List.mem_cons_of_mem _ hc)) _ first.wellFormed first.allAttributes h₁
        sec₁)
    rw [mergeAttributes, apply_bind_ok apply_get]
    dsimp only
    split
    · -- The counterpart keeps its name, which is that of the attribute but for the case.
      rename_i id found
      obtain ⟨hm, named⟩ := List.mem_filter.1 (List.mem_of_getElem? found)
      rw [attributesOf_eq h] at hm
      obtain ⟨e, live, -⟩ := wf.listed target td _ id h hm
      rw [isNamed_eq live, pairOf_eq live, goodFirst.2] at named
      have first : Extends P conf ((setValue id b.value).apply conf).2 :=
        extends_setValue wf all live fun _ => respects named meetsFirst
      split
      · exact after_both first fun _ _ => rest
      · exact rest (.refl wf all)
    · have first : Extends P conf ((addAttribute target b.name b.value).apply conf).2 :=
        (extends_append b.value goodFirst (fun _ => meetsFirst) target conf (.refl wf all)).1
      exact after_both first fun _ _ => rest

/-- The value and the attributes of a section extend a configuration, however that ends. -/
lemma extends_mergeOwn
    (respects : ∀ {m n : String} {v : Option String}, sameName m n = true → P (n, v) → P (m, v))
    {attributes : List Attribute} (good : ∀ b ∈ attributes, GoodName b.name)
    (meet : ∀ b ∈ attributes.map Attribute.pair, P b)
    (wf : conf.WellFormed) (all : conf.AllAttributes P) (h : conf.live? target = some td)
    (sec : td.kind = .sectionKind) (value : Option String) :
    Extends P conf ((mergeValue target value >>= fun _ =>
      mergeAttributes target [] attributes).apply conf).2 := by
  refine after_both (extends_mergeValue wf all h sec value) fun _ conf₁ first => ?_
  obtain ⟨d₁, h₁, sec₁⟩ := first.live_section h sec
  exact first.trans (extends_mergeAttributes respects good meet [] first.wellFormed
    first.allAttributes h₁ sec₁)

/-! ## Merges -/

variable (process source) in
mutual

/-- A merge of a section extends a configuration in which no section is to be replaced, however it
ends. -/
lemma extends_mergeSection (sparing : Sparing rules P) : ∀ (t : Subtree) {conf : Configuration}
    {target : Nat} {d : NodeData}, t.Named → t.shape.AllAttributes P → conf.WellFormed →
    conf.AllAttributes P → conf.live? target = some d → d.kind = .sectionKind →
    Extends P conf ((mergeSection process rules source target t).apply conf).2
  | .mk id name value attributes children, conf, target, d, ⟨_, goodAttributes, goodChildren⟩, meet,
      wf, all, h, sec => by
    obtain ⟨own, rest⟩ := Shape.allAttributes_iff.1 meet
    have self : Extends P conf conf := .refl wf all
    have merged : Extends P conf ((mergeValue target value >>= fun _ =>
        mergeAttributes target [] attributes).apply conf).2 :=
      extends_mergeOwn sparing.respects goodAttributes own wf all h sec value
    refine after_mergeSection self
      (fun declared => absurd declared (policyOf_ne_replace sparing process wf all target)) merged
      (extends_mergeSections sparing children goodChildren rest wf all h sec) ?_
    rw [← bind_assoc]
    refine after_both merged fun _ conf₁ first => ?_
    obtain ⟨d₁, h₁, sec₁⟩ := first.live_section h sec
    exact first.trans (extends_mergeSections sparing children goodChildren rest first.wellFormed
      first.allAttributes h₁ sec₁)

/-- To merge sections is to extend. -/
lemma extends_mergeSections (sparing : Sparing rules P) : ∀ (ts : List Subtree)
    {conf : Configuration} {target : Nat} {d : NodeData}, Subtree.AllNamed ts →
    (∀ c ∈ Subtree.shapes ts, c.AllAttributes P) → conf.WellFormed → conf.AllAttributes P →
    conf.live? target = some d → d.kind = .sectionKind →
    Extends P conf ((mergeSections process rules source target ts).apply conf).2
  | [], conf, target, d, _, _, wf, all, _, _ => .refl wf all
  | t :: ts, conf, target, d, ⟨goodFirst, goodRest⟩, meet, wf, all, h, sec => by
    have self : Extends P conf conf := .refl wf all
    have meetsFirst := meet _ List.mem_cons_self
    have first : Extends P conf ((mergeNext process rules source target t).apply conf).2 := by
      refine after_mergeNext self (fun c found => ?_)
        (extends_copySubtree target goodFirst meetsFirst conf self).1
      obtain ⟨-, e, live, kind⟩ := live_of_matchOf wf h found
      exact extends_mergeSection sparing t goodFirst meetsFirst wf all live kind
    rw [mergeSections_cons]
    refine after_both first fun _ conf₁ first => ?_
    obtain ⟨d₁, h₁, sec₁⟩ := first.live_section h sec
    exact first.trans (extends_mergeSections sparing ts goodRest
      (fun c hc => meet c (List.mem_cons_of_mem _ hc)) first.wellFormed first.allAttributes h₁ sec₁)

end

/-- A merge of one child section extends a configuration in which no section is to be replaced. -/
lemma extends_mergeNext (sparing : Sparing rules P) {t : Subtree} (named : t.Named)
    (meet : t.shape.AllAttributes P) (wf : conf.WellFormed) (all : conf.AllAttributes P)
    (h : conf.live? target = some td) (sec : td.kind = .sectionKind) :
    Extends P conf ((mergeNext process rules source target t).apply conf).2 := by
  have whole : Extends P conf ((mergeSections process rules source target [t]).apply conf).2 :=
    extends_mergeSections source process sparing [t] ⟨named, trivial⟩ (by simpa [Subtree.shapes]) wf
      all h sec
  rw [mergeSections_cons, mergeSections, bind_pure_unit] at whole
  exact whole

end Edit

/-! ## Whole configurations -/

namespace Configuration

variable {a b : Configuration} {rules : Rules} {P : String × Option String → Prop}

/-- A merge of a whole configuration extends one in which no section is to be replaced. -/
lemma extends_overrideBy (process : Host) (sparing : Sparing rules P) (wfa : a.WellFormed)
    (wfb : b.WellFormed) (allA : a.AllAttributes P) (allB : b.AllAttributes P) :
    Extends P a ((Edit.overrideBy process rules b).apply a).2 := by
  obtain ⟨d, h, sec, -⟩ := wfa.root
  obtain ⟨e, h', -⟩ := wfb.root
  rw [overrideBy_apply process wfb h sec]
  exact Edit.extends_mergeSection b process sparing (b.subtree root) (named_subtree wfb h')
    (allB.shape wfb h') wfa allA h sec

/-- A merge that meets no policy `replace` removes nothing: if every policy in both configurations
is a plain text other than `replace`, then after a merge, in success or with any error, every node
of the target is where it was under its name, with all its entries in their order, and what its
lists have besides comes last and is new. -/
theorem overrideBy_extends (ha : Reachable a) (hb : Reachable b) (process : Host)
    (sparedA : a.AllAttributes (SparingAttribute rules))
    (sparedB : b.AllAttributes (SparingAttribute rules)) :
    ∀ (id : Nat) d, a.live? id = some d →
      ∃ e, ((Edit.overrideBy process rules b).apply a).2.live? id = some e ∧ e.name = d.name ∧
        e.kind = d.kind ∧ e.parent = d.parent ∧
        ∀ k, ∃ new, e.entries k = d.entries k ++ new ∧ ∀ x ∈ new, a.nodes.size ≤ x :=
  (extends_overrideBy process (sparing_sparingAttribute rules) ha.wellFormed hb.wellFormed sparedA
    sparedB).kept

/-- The source changes the policy of a section halfway, and then meets one that makes the merge
fail. -/
theorem overrideBy_extends_conflict :
    let a := (withRoot "base").operateAll
      [(.bare, .addSection 0 "Log" (some "old")), (.bare, .addAttribute 1 "_override" (some "all")),
        (.bare, .addSection 1 "file" none), (.bare, .addSection 0 "data" (some "kept")),
        (.bare, .addAttribute 4 "_OVERRIDE" (some " Fail "))]
    let b := (withRoot "layer").operateAll
      [(.bare, .addSection 0 "log" (some "new")),
        (.bare, .addAttribute 1 "_Override" (some "attributes")),
        (.bare, .addAttribute 1 "level" (some "3")), (.bare, .addSection 1 "console" none),
        (.bare, .addSection 0 "log" none), (.bare, .addSection 5 "syslog" none),
        (.bare, .addSection 0 "data" (some "lost"))]
    let c := ((Edit.overrideBy .bare .standard b).apply a).2
    ((Edit.overrideBy .bare .standard b).apply a).1 = .error (.mergeConflict "/data" "_override") ∧
      (c.shape root).sections.map (fun s => (s.name, s.value, s.attributes)) =
        [("base", none, []),
          ("Log", some "new", [("_override", some "attributes"), ("level", some "3")]),
          ("file", none, []), ("console", none, []),
          ("data", some "kept", [("_OVERRIDE", some " Fail ")])] ∧
      ∀ (id : Nat) d, a.live? id = some d →
        ∃ e, c.live? id = some e ∧ e.name = d.name ∧ e.kind = d.kind ∧ e.parent = d.parent ∧
          ∀ k, ∃ new, e.entries k = d.entries k ++ new ∧ ∀ x ∈ new, a.nodes.size ≤ x := by
  intro a b c
  have ha : Reachable a := (Reachable.withRoot "base").operateAll _ (by simp [Operation.others])
  have hb : Reachable b := (Reachable.withRoot "layer").operateAll _ (by simp [Operation.others])
  have sparedA : a.AllAttributes (SparingAttribute .standard) := by decide +kernel
  have sparedB : b.AllAttributes (SparingAttribute .standard) := by decide +kernel
  exact ⟨by decide +kernel, by decide +kernel, overrideBy_extends ha hb .bare sparedA sparedB⟩

end Configuration

end ConfTree
