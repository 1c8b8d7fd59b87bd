import ConfTree.Proofs.Merge.Itself
import ConfTree.Proofs.Merge.Occurrences

/-!
# Flags of modified nodes

An edit flags the nodes that it changes, and a flag stays. So a flag says that a node was changed
once, but the node may be again what it was before. `Flags` says that this is not the case: what is
flagged has become another one. Of two edits in a row this holds if no node gets its value from both
(`Flags.trans`). A merge that replaces nothing, of sections that have their own keys, gives no node
two values: attributes have their turns one after the other (`inTurn_mergeAttributes`), and what was
merged into a child section has a key that those that follow have not (`key?_mergeSection`), so
that they leave it alone (`sameBelow_rest`). The main statement is `overrideBy_flags`.
-/

namespace ConfTree

open ConfTree.Configuration ConfTree.Text

namespace Configuration

/-- The flags of the second configuration tell what has changed since the first one. -/
structure Flags (before after : Configuration) : Prop where
  size : before.nodes.size ≤ after.nodes.size
  /-- A node is flagged if it was, or if its value or one of its lists is another one. -/
  old : ∀ (x : Nat) d, before.live? x = some d → ∃ e, after.live? x = some e ∧
    (∀ k, d.entries k <+: e.entries k) ∧
    (e.modified = true ↔
      d.modified = true ∨ e.value ≠ d.value ∨ ∃ k, e.entries k ≠ d.entries k)
  /-- A new node is flagged. -/
  new : ∀ x, before.nodes.size ≤ x → x < after.nodes.size →
    ∃ e, after.live? x = some e ∧ e.modified = true

variable {conf conf' conf'' : Configuration} {id parent : Nat} {d pd : NodeData} {kind : Kind}
  {name : String} {value : Option String}

/-- Another node keeps its value. -/
lemma verbatim?_replaceValue_of_ne {x : Nat} (hne : x ≠ id) :
    (conf.replaceValue id value).verbatim? x = conf.verbatim? x := by
  rw [verbatim?, verbatim?, live?_replaceValue, if_neg hne.symm]

namespace Flags

/-- Without changes the flags tell of none. -/
lemma refl : Flags conf conf where
  size := Nat.le_refl _
  old _ d h := ⟨d, h, fun _ => List.prefix_refl _, by simp⟩
  new _ lt lt' := absurd lt' (Nat.not_lt.2 lt)

/-- Flags tell what two edits in a row have changed if none of them takes a value back that the
other one has set. -/
lemma trans (h : Flags conf conf') (k : Flags conf' conf'')
    (once : ∀ (x : Nat) d, conf.live? x = some d →
      conf'.verbatim? x = conf.verbatim? x ∨ conf''.verbatim? x = conf'.verbatim? x) :
    Flags conf conf'' := by
  refine ⟨h.size.trans k.size, fun x d hd => ?_, fun x lt lt' => ?_⟩
  · obtain ⟨e, he, lists, flag⟩ := h.old x d hd
    obtain ⟨f, hf, lists', flag'⟩ := k.old x e he
    refine ⟨f, hf, fun l => (lists l).trans (lists' l), ?_⟩
    have values : (e.value ≠ d.value ∨ f.value ≠ e.value) ↔ f.value ≠ d.value := by
      have once := once x d hd
      rw [verbatim?_eq hd, verbatim?_eq he, verbatim?_eq hf] at once
      rcases once with same | same <;> simp [same]
    -- A list that grows twice is not what it was.
    have entries : ∀ l, (e.entries l ≠ d.entries l ∨ f.entries l ≠ e.entries l) ↔
        f.entries l ≠ d.entries l := by
      intro l
      refine ⟨fun differs same => ?_, fun differs => ?_⟩
      · have between : e.entries l = d.entries l :=
          ((same ▸ lists' l).eq_of_length_le (lists l).length_le)
        exact differs.elim (· between) fun differs => differs (same.trans between.symm)
      · by_contra both
        rw [not_or, not_not, not_not] at both
        exact differs (both.2.trans both.1)
    rw [flag', flag, ← values, ← exists_congr entries, exists_or]
    simp only [or_assoc, or_left_comm]
  · rcases Nat.lt_or_ge x conf'.nodes.size with lt'' | ge
    · obtain ⟨e, he, flagged⟩ := h.new x lt lt''
      obtain ⟨f, hf, -, flag⟩ := k.old x e he
      exact ⟨f, hf, flag.2 (.inl flagged)⟩
    · exact k.new x ge lt'

/-- A new node is flagged with its parent. -/
lemma addNode (h : conf.live? parent = some pd) (sec : pd.kind = .sectionKind) :
    Flags conf (conf.addNode kind parent name value) := by
  refine ⟨by rw [size_addNode]; omega, fun x d hd => ?_, fun x lt lt' => ?_⟩
  · by_cases own : x = parent
    · subst own
      rw [h] at hd
      cases hd
      refine ⟨_, live?_addNode_parent h, fun k => ?_, ?_⟩
      · rw [NodeData.entries_push sec]
        split
        · exact List.prefix_append _ _
        · exact List.prefix_refl _
      · refine iff_of_true rfl (.inr (.inr ⟨kind, ?_⟩))
        rw [NodeData.entries_push sec, if_pos rfl]
        simp
    · have old := lt_size_of_live hd
      exact ⟨d, (live?_addNode_of_ne h (by omega) own).trans hd, fun _ => List.prefix_refl _,
        by simp⟩
  · rw [size_addNode] at lt'
    obtain rfl : x = conf.nodes.size := by omega
    exact ⟨_, live?_addNode_new h, rfl⟩

/-- A node with another value is flagged. -/
lemma replaceValue (h : conf.live? id = some d) (differs : conf.verbatim? id ≠ value) :
    Flags conf (conf.replaceValue id value) := by
  have size : (conf.replaceValue id value).nodes.size = conf.nodes.size := size_modifyNode _
  refine ⟨size.ge, fun x e he => ?_, fun x lt lt' => absurd lt' (by omega)⟩
  by_cases own : id = x
  · subst own
    rw [h] at he
    cases he
    rw [verbatim?_eq h] at differs
    exact ⟨_, live?_replaceValue_self h, fun k => by cases k <;> exact List.prefix_refl _,
      iff_of_true rfl (.inr (.inl differs.symm))⟩
  · rw [live?_replaceValue, if_neg own]
    exact ⟨e, he, fun _ => List.prefix_refl _, by simp⟩

end Flags

end Configuration

namespace Edit

variable {a conf conf' source : Configuration} {rules : Rules} {process : Host} {target : Nat}
  {d : NodeData} {t : Subtree} {ts : List Subtree}

/-! ## Copies -/

/-- The flags tell of an appended node. -/
lemma flags_append (kind : Kind) (parent : NodeId) (name : String) (value : Option String) :
    Keeps (Flags a) (append kind parent name value) fun _ => True := by
  refine .checked fun conf stored flags h => ⟨?_, trivial⟩
  obtain ⟨-, -, -, pd, hp, sec⟩ := appendable_iff.1 h
  refine flags.trans (.addNode hp sec) fun x d hd => ?_
  obtain ⟨e, he, -⟩ := flags.old x d hd
  exact .inr (verbatim?_addNode hp he)

/-- The flags tell of copied attributes. -/
lemma flags_copyAttributes (parent : NodeId) (attributes : List Attribute) :
    Keeps (Flags a) (copyAttributes parent attributes) fun _ => True := by
  induction attributes with
  | nil => exact .pure trivial
  | cons b attributes ih =>
    exact .bind (flags_append .attributeKind parent b.name b.value) fun _ _ => ih

mutual

/-- All that a copy adds is flagged, and what it is added to. -/
lemma flags_copySubtree : ∀ (t : Subtree) (parent : NodeId),
    Keeps (Flags a) (copySubtree parent t) fun _ => True
  | .mk _ name value attributes children, parent => by
    rw [copySubtree]
    refine .bind (flags_append .sectionKind parent name value) fun id _ => ?_
    refine .bind (flags_copyAttributes id attributes) fun _ _ => ?_
    exact .bind (flags_copySubtrees children id) fun _ _ => .pure trivial

/-- The flags tell of copied trees. -/
lemma flags_copySubtrees : ∀ (ts : List Subtree) (parent : NodeId),
    Keeps (Flags a) (copySubtrees parent ts) fun _ => True
  | [], _ => .pure trivial
  | t :: ts, parent =>
    .bind (flags_copySubtree t parent) fun _ _ => flags_copySubtrees ts parent

end

/-! ## Values and attributes -/

/-- The turn of an attribute is over: so many attributes of its name are among the `seen` ones. -/
def Passed (conf : Configuration) (target : Nat) (seen : List String) (x : Nat) : Prop :=
  x ∈ conf.attributesOf target →
    conf.occurrence target x < (seen.filter (sameName · (conf.nameOf x))).length

/-- What had its turn has had it when one more attribute was seen. -/
lemma Passed.concat {seen : List String} {x : Nat} (h : Passed conf target seen x) (name : String) :
    Passed conf target (seen ++ [name]) x := by
  intro hx
  rw [List.filter_append, List.length_append]
  exact Nat.lt_add_right _ (h hx)

/-- An old attribute has its turn in a longer list when it had it in the shorter one. -/
lemma Passed.extends {P : String × Option String → Prop} {seen : List String} {x : Nat}
    (h : Passed conf target seen x) (wf : conf.WellFormed) (extends' : Extends P conf conf')
    (live : conf.live? target = some d) (old : x < conf.nodes.size) :
    Passed conf' target seen x := by
  obtain ⟨new, lists, fresh, kept⟩ := extends'.attributesOf wf live
  intro hx
  rw [lists, List.mem_append] at hx
  have hm := hx.resolve_right fun hm => absurd (fresh x hm) (by omega)
  rw [extends'.occurrence wf live hm, (kept x hm).2]
  exact h hm

/-- The attribute that is next of its name has not had its turn, and has had it afterwards. -/
lemma passed_next (wf : conf.WellFormed) (h : conf.live? target = some d) {seen : List String}
    {name : String} {x : Nat} (found : (conf.attributesNamed target name)[
      (seen.filter (sameName · name)).length]? = some x) :
    ¬ Passed conf target seen x ∧ Passed conf target (seen ++ [name]) x := by
  obtain ⟨hm, same, place⟩ := of_getElem?_attributesNamed wf h found
  have classes : (sameName · (conf.nameOf x)) = (sameName · name) := by
    funext n
    exact sameName_congr_right same n
  refine ⟨fun passed => ?_, fun _ => ?_⟩
  · have lt := passed (by rwa [attributesOf_eq h])
    rw [place, classes] at lt
    exact Nat.lt_irrefl _ lt
  · rw [place, classes, List.filter_append, List.filter_cons, if_pos (sameName_refl name)]
    simp

/-- Flags tell what has changed, and no attribute whose turn is over has another value, nor has
anything that is no attribute of the section. -/
structure InTurn (target : Nat) (seen : List String) (before after : Configuration) : Prop where
  flags : Flags before after
  spares : ∀ (x : Nat) d, before.live? x = some d → Passed before target seen x →
    after.verbatim? x = before.verbatim? x

/-- An attribute of the source is given to one that has its turn, and the rest leaves this one
alone. -/
lemma InTurn.cons {conf₁ : Configuration} {P : String × Option String → Prop} {seen : List String}
    {name : String} (wf : conf.WellFormed) (h : conf.live? target = some d)
    (grown : Extends P conf conf₁) (flags : Flags conf conf₁)
    (turn : ∀ (x : Nat) e, conf.live? x = some e → conf₁.verbatim? x = conf.verbatim? x ∨
      ¬ Passed conf target seen x ∧ Passed conf target (seen ++ [name]) x)
    (rest : InTurn target (seen ++ [name]) conf₁ conf') : InTurn target seen conf conf' := by
  have later : ∀ (x : Nat) e, conf.live? x = some e → Passed conf target (seen ++ [name]) x →
      conf'.verbatim? x = conf₁.verbatim? x := by
    intro x e he passed
    obtain ⟨f, hf, -⟩ := grown.kept x e he
    exact rest.spares x f hf (passed.extends wf grown h (lt_size_of_live he))
  refine ⟨flags.trans rest.flags fun x e he => ?_, fun x e he passed => ?_⟩
  · exact (turn x e he).imp_right fun now => later x e he now.2
  · exact (later x e he (passed.concat _)).trans
      ((turn x e he).resolve_right fun now => now.1 passed)

/-- A merge of attributes gives each of them a value in its turn. -/
lemma inTurn_mergeAttributes {attributes : List Attribute}
    (good : ∀ b ∈ attributes, GoodName b.name) (seen : List String) (wf : conf.WellFormed)
    (writable : conf.readOnly = false) (h : conf.live? target = some d)
    (sec : d.kind = .sectionKind) :
    InTurn target seen conf ((mergeAttributes target seen attributes).apply conf).2 := by
  induction attributes generalizing seen conf d with
  | nil => exact ⟨.refl, fun _ _ _ _ => rfl⟩
  | cons b attributes ih =>
    have goodFirst := good b List.mem_cons_self
    have rest : ∀ {conf₁ : Configuration}, Extends (fun _ => True) conf conf₁ →
        conf₁.readOnly = false → InTurn target (seen ++ [b.name]) conf₁
          ((mergeAttributes target (seen ++ [b.name]) attributes).apply conf₁).2 := by
      intro conf₁ grown writable₁
      obtain ⟨d₁, h₁, sec₁⟩ := grown.live_section h sec
      exact ih (fun c hc => good c (List.mem_cons_of_mem _ hc)) _ grown.wellFormed writable₁ h₁ sec₁
    have self : Extends (fun _ => True) conf conf := .refl wf fun _ _ _ _ => trivial
    rw [mergeAttributes, apply_bind_ok apply_get]
    dsimp only
    split
    · rename_i id found
      have found : (conf.attributesNamed target b.name)[
          (seen.filter (sameName · b.name)).length]? = some id := by
        rw [← found, attributesNamed]
        simp only [isNamed, goodFirst.2]
      have turn := passed_next wf h found
      obtain ⟨hm, -⟩ := of_getElem?_attributesNamed wf h found
      obtain ⟨e, live, -⟩ := wf.listed target d _ id h hm
      split
      · rename_i differs
        rw [bne_iff_ne] at differs
        have grown : Extends (fun _ => True) conf (conf.replaceValue id b.value) :=
          .replaceValue wf self.allAttributes live fun _ => trivial
        rw [apply_bind_ok (apply_setValue writable live)]
        refine .cons wf h grown (.replaceValue live differs) (fun x _ _ => ?_) (rest grown writable)
        by_cases own : x = id
        · exact .inr (own ▸ turn)
        · exact .inl (verbatim?_replaceValue_of_ne own)
      · exact .cons wf h self .refl (fun _ _ _ => .inl rfl) (rest self writable)
    · have added : (addAttribute target b.name b.value).apply conf = _ :=
        apply_append writable h sec goodFirst
      have grown : Extends (fun _ => True) conf
          (conf.addNode .attributeKind target b.name b.value) :=
        .addNode wf self.allAttributes h sec goodFirst fun _ => trivial
      rw [apply_bind_ok added]
      exact .cons wf h grown (.addNode h sec) (fun _ _ hx => .inl (verbatim?_addNode h hx))
        (rest grown writable)

/-- Flags tell what a merge of the value has changed, and it leaves all other values. -/
lemma flags_mergeValue (writable : conf.readOnly = false) (h : conf.live? target = some d)
    (value : Option String) :
    Flags conf ((mergeValue target value).apply conf).2 ∧ ∀ x ≠ target,
      ((mergeValue target value).apply conf).2.verbatim? x = conf.verbatim? x := by
  rw [mergeValue, apply_bind_ok apply_get]
  split
  · rename_i set
    rw [Bool.and_eq_true, bne_iff_ne] at set
    rw [apply_setValue writable h]
    exact ⟨.replaceValue h set.2, fun _ hne => verbatim?_replaceValue_of_ne hne⟩
  · exact ⟨.refl, fun _ _ => rfl⟩

/-- Flags tell what a merge of the value and the attributes has changed. -/
lemma flags_mergeOwn {attributes : List Attribute} (good : ∀ b ∈ attributes, GoodName b.name)
    (wf : conf.WellFormed) (writable : conf.readOnly = false) (h : conf.live? target = some d)
    (sec : d.kind = .sectionKind) (value : Option String) :
    Flags conf ((mergeValue target value >>= fun _ =>
      mergeAttributes target [] attributes).apply conf).2 := by
  obtain ⟨conf₁, run, confined, -⟩ := mergeValue_spec wf writable h value
  obtain ⟨d₁, h₁, kind, -⟩ := confined.kept d h
  obtain ⟨flags, others⟩ := flags_mergeValue writable h value
  rw [run] at flags others
  rw [apply_bind_ok run]
  have turns := inTurn_mergeAttributes good [] confined.wellFormed
    (confined.readOnly.trans writable) h₁ (kind.trans sec)
  refine flags.trans turns.flags fun x e he => ?_
  by_cases own : x = target
  · subst own
    -- The section is none of its attributes.
    refine .inr (turns.spares x d₁ h₁ fun hx => ?_)
    rw [attributesOf_eq h₁] at hx
    exact absurd (confined.wellFormed.lt_of_mem_entries h₁ hx) (Nat.lt_irrefl x)
  · exact .inl (others x own)

/-! ## Keys -/

variable (process rules source) in
/-- After a merge, however it ends, a section has the key that it had, or that of the section that
was merged into it, if this one has a key. -/
lemma key?_mergeSection (named : t.Named) (wf : conf.WellFormed) (writable : conf.readOnly = false)
    (h : conf.live? target = some d) (sec : d.kind = .sectionKind) (keyName : String) :
    let after := ((mergeSection process rules source target t).apply conf).2
    (after.shape target).key? keyName = (conf.shape target).key? keyName ∨
      (t.shape.carries keyName = true →
        (after.shape target).key? keyName = t.shape.key? keyName) := by
  obtain ⟨id, name, value, attributes, children⟩ := t
  obtain ⟨conf₁, conf₂, run₁, run₂, confined, shape, -⟩ :=
    mergeOwn_spec (.mk id name value attributes children) wf writable h sec named.2.1
  rw [Subtree.value] at run₁
  rw [Subtree.attributes] at run₂
  have laid : (Subtree.mk id name value attributes children).shape.carries keyName = true →
      (conf₂.shape target).key? keyName =
        (Subtree.mk id name value attributes children).shape.key? keyName := by
    rw [shape]
    exact Shape.key?_lay
  -- What comes behind the attributes leaves the key.
  have keeps : ∀ {c : Configuration} {e : NodeData}, c.WellFormed → c.readOnly = false →
      c.live? target = some e → e.kind = .sectionKind →
      (((mergeSections process rules source target children).apply c).2.shape target).key? keyName =
        (c.shape target).key? keyName := by
    intro c e wf' writable' he kind
    have whole := confined_mergeSections process rules source children named.2.2 wf' writable' he
      kind
    have own : KeepsOwn target c ((mergeSections process rules source target children).apply c).2 :=
      keepsOwn_mergeSections named.2.2 wf' writable' he kind
    rw [Shape.key?, Shape.key?, own.shape_attributes wf' whole.wellFormed he]
  refine after_mergeSection (R := fun c => (c.shape target).key? keyName = _ ∨
    (_ → (c.shape target).key? keyName = _)) (.inl rfl) (fun _ => .inr fun _ => ?_)
    (.inr fun carries => ?_) (.inl (keeps wf writable h sec)) (.inr fun carries => ?_)
  · obtain ⟨conf₃, run₃, -, copied⟩ := replaceBy_spec wf writable h sec named
    rw [run₃, copied]
    rfl
  · rw [(apply_bind_ok run₁).trans run₂]
    exact laid carries
  · obtain ⟨d₂, h₂, kind, -⟩ := confined.kept d h
    rw [(apply_bind_ok run₁).trans (apply_bind_ok run₂),
      keeps confined.wellFormed (confined.readOnly.trans writable) h₂ (kind.trans sec)]
    exact laid carries

end Edit

/-- What pairs with a section, or has taken over its key since, pairs with no section that has
another key. -/
lemma KeysDiffer.not_pairs_of_key {rules : Rules} {b b' s t : Shape} (h : KeysDiffer rules s t)
    (pairs : b.pairs rules.keyName s = true) (name : b'.name = b.name)
    (key : b'.key? rules.keyName = b.key? rules.keyName ∨
      (s.carries rules.keyName = true → b'.key? rules.keyName = s.key? rules.keyName)) :
    b'.pairs rules.keyName t = false := by
  by_contra other
  rw [Bool.not_eq_false] at other
  simp only [Shape.pairs, Bool.and_eq_true, name] at pairs other
  obtain ⟨carries, carries', differ⟩ := h (sameName_trans (sameName_symm pairs.1) other.1)
  simp only [carries, carries', Bool.not_true, Bool.false_or, beq_iff_eq] at pairs other
  refine differ ?_
  rcases key with same | taken
  · rw [same, pairs.2] at other
    exact Option.some.inj other.2
  · rw [← taken carries, other.2, Option.getD_some]

/-! ## Merges that replace nothing -/

/-- If a merge looks at the attribute, its value is a plain text, and for a policy not `replace`. -/
def TameAttribute (rules : Rules) (b : String × Option String) : Prop :=
  SparingAttribute rules b ∧ LiteralAttribute rules b

instance (rules : Rules) : DecidablePred (TameAttribute rules) := by
  unfold TameAttribute
  infer_instance

/-- A tame attribute is no reason to replace a section. -/
lemma sparing_tameAttribute (rules : Rules) : Sparing rules (TameAttribute rules) where
  respects same h :=
    ⟨(sparing_sparingAttribute rules).respects same h.1, LiteralAttribute.respects same h.2⟩
  spares h := h.1

/-- A section of the source in which siblings have their own keys. -/
structure Offered (rules : Rules) (source : Configuration) (t : Subtree) : Prop where
  taken : TakenFrom source t
  apart : Distinguished rules t.shape
  tame : t.shape.AllAttributes (TameAttribute rules)

/-- A section of a writable configuration in which nothing is to be replaced. -/
structure Receptive (rules : Rules) (conf : Configuration) (target : Nat) : Prop where
  wellFormed : conf.WellFormed
  writable : conf.readOnly = false
  tame : conf.AllAttributes (TameAttribute rules)
  live : ∃ d, conf.live? target = some d ∧ d.kind = .sectionKind

variable {conf conf' source : Configuration} {rules : Rules} {process : Host}
  {target : Nat} {d : NodeData} {t : Subtree} {ts : List Subtree}

/-- The child sections of a section are offered with it, each with a key of its own. -/
lemma Offered.all (wfs : source.WellFormed) {id : NodeId} {name : String} {value : Option String}
    {attributes : List Attribute} {children : List Subtree}
    (offered : Offered rules source (.mk id name value attributes children)) :
    (∀ c ∈ children, Offered rules source c) ∧
      (Subtree.shapes children).Pairwise (KeysDiffer rules) :=
  ⟨fun c hc => ⟨offered.taken.child wfs c hc, offered.apart.child (Subtree.shape_mem_children hc),
    offered.tame.child (Subtree.shape_mem_children hc)⟩,
    offered.apart _ (Shape.mem_sections_self _)⟩

namespace Receptive

/-- Child sections are receptive, too. -/
lemma child (r : Receptive rules conf target) {c : Nat} (hc : c ∈ conf.childrenOf target) :
    Receptive rules conf c := by
  obtain ⟨d, hd, -⟩ := r.live
  rw [childrenOf_eq hd] at hc
  obtain ⟨e, live, kind, -⟩ := r.wellFormed.listed target d _ c hd hc
  exact ⟨r.wellFormed, r.writable, r.tame, e, live, kind⟩

/-- What a receptive section is extended to is receptive. -/
lemma extend (r : Receptive rules conf target)
    (grown : Extends (TameAttribute rules) conf conf') (writable : conf'.readOnly = false) :
    Receptive rules conf' target := by
  obtain ⟨d, hd, sec⟩ := r.live
  exact ⟨grown.wellFormed, writable, grown.allAttributes, grown.live_section hd sec⟩

section

variable (r : Receptive rules conf target) (wfs : source.WellFormed)
  (offered : Offered rules source t)

include r wfs offered

/-- However the merge of a child section ends, others can be merged behind it. -/
lemma next {out : Except ConfigError Unit}
    (run : (Edit.mergeNext process rules source target t).apply conf = (out, conf')) :
    Extends (TameAttribute rules) conf conf' ∧ Receptive rules conf' target := by
  obtain ⟨d, hd, sec⟩ := r.live
  have named := offered.taken.named wfs
  have grown : Extends (TameAttribute rules) conf
      ((Edit.mergeNext process rules source target t).apply conf).2 :=
    Edit.extends_mergeNext (sparing_tameAttribute rules) named offered.tame r.wellFormed r.tame hd
      sec
  rw [run] at grown
  have confined := Edit.confined_mergeNext named r.wellFormed r.writable hd sec run
  exact ⟨grown, r.extend grown (confined.readOnly.trans r.writable)⟩

/-- What a section of the source is paired with pairs with it. -/
lemma pairs (appends : rules.appends = false) {c : Nat}
    (found : conf.matchOf process rules source target t.id t.name = .ok (some c)) :
    (conf.shape c).pairs rules.keyName t.shape = true := by
  obtain ⟨d, hd, -⟩ := r.live
  have literal : Literal rules (conf.shape target) :=
    fun s hs a ha => (r.tame.shape r.wellFormed hd s hs a ha).2
  have literal' : ∀ a ∈ t.shape.attributes, LiteralAttribute rules a :=
    fun a ha => (offered.tame _ (Shape.mem_sections_self _) a ha).2
  rw [offered.taken.matchOf process r.wellFormed wfs appends hd literal.children literal'] at found
  have first := List.find?_some (Except.ok.inj found)
  exact first

end

end Receptive

namespace Edit

/-- A child section that pairs with none of the sections of the source is as before after a merge of
them, however it ends. -/
lemma sameBelow_mergeSections (r : Receptive rules conf target) (wfs : source.WellFormed)
    (appends : rules.appends = false) (offered : ∀ t ∈ ts, Offered rules source t) {y : Nat}
    (hy : y ∈ conf.childrenOf target)
    (others : ∀ s ∈ Subtree.shapes ts, (conf.shape y).pairs rules.keyName s = false) :
    SameBelow y conf ((mergeSections process rules source target ts).apply conf).2 := by
  induction ts generalizing conf with
  | nil => exact .refl
  | cons t ts ih =>
    obtain ⟨d, hd, sec⟩ := r.live
    have offered' := offered t List.mem_cons_self
    have first : ∀ {out conf₁},
        (mergeNext process rules source target t).apply conf = (out, conf₁) →
        SameBelow y conf conf₁ ∧ y ∈ conf₁.childrenOf target := by
      intro out conf₁ run
      refine sameBelow_mergeNext (offered'.taken.named wfs) r.wellFormed r.writable hd sec run hy
        fun found => ?_
      have pairs := r.pairs wfs offered' appends found
      rw [others t.shape List.mem_cons_self] at pairs
      cases pairs
    rw [mergeSections_cons]
    refine after_bind (fun _ _ run => (first run).1) fun _ conf₁ run => ?_
    obtain ⟨same, hy'⟩ := first run
    obtain ⟨-, r₁⟩ := r.next wfs offered' run
    obtain ⟨e, live, -⟩ := (r.child hy).live
    have shape := same.shape_eq r.wellFormed r₁.wellFormed live
    refine same.trans (ih r₁ (fun x hx => offered x (List.mem_cons_of_mem _ hx)) hy' fun s hs => ?_)
    rw [shape]
    exact others s (List.mem_cons_of_mem _ hs)

/-- What a section of the source was merged into is left alone by those that have other keys. -/
lemma sameBelow_rest {conf₁ : Configuration} (r : Receptive rules conf target)
    (wfs : source.WellFormed) (appends : rules.appends = false) (offered : Offered rules source t)
    (rest : ∀ u ∈ ts, Offered rules source u)
    (differ : ∀ s ∈ Subtree.shapes ts, KeysDiffer rules t.shape s)
    (run : (mergeNext process rules source target t).apply conf = (.ok (), conf₁)) {c : Nat}
    (found : conf.matchOf process rules source target t.id t.name = .ok (some c)) :
    SameBelow c conf₁ ((mergeSections process rules source target ts).apply conf₁).2 := by
  obtain ⟨d, h, -⟩ := r.live
  have wf := r.wellFormed
  have hc := mem_of_matchOf found
  obtain ⟨e, live, kind⟩ := (r.child hc).live
  obtain ⟨grown, r₁⟩ := r.next wfs offered run
  have named := offered.taken.named wfs
  have confined := confined_mergeSection process rules source t named wf r.writable live kind
  have key := key?_mergeSection source rules process named wf r.writable live kind rules.keyName
  rw [apply_mergeNext_some found] at run
  rw [run] at confined key
  -- The counterpart has kept its name, and has a key that the rest have not.
  obtain ⟨f, hf, name, -⟩ := grown.kept c e live
  have name' : (conf₁.shape c).name = (conf.shape c).name := by
    rw [name_shape r₁.wellFormed hf, name_shape wf live, name]
  have pairs := r.pairs wfs offered appends found
  have hc' : c ∈ conf₁.childrenOf target := by
    rw [childrenOf_eq h] at hc
    rwa [childrenOf_eq (confined.live_parent wf h hc)]
  exact sameBelow_mergeSections r₁ wfs appends rest hc'
    fun s hs => (differ s hs).not_pairs_of_key pairs name' key

/-- A merge of child sections leaves the values of all that does not lie below a child section. -/
lemma verbatim?_mergeSections (named : Subtree.AllNamed ts) (wf : conf.WellFormed)
    (writable : conf.readOnly = false) (h : conf.live? target = some d)
    (sec : d.kind = .sectionKind) {x : Nat} {e : NodeData} (live : conf.live? x = some e)
    (out : ∀ c ∈ conf.childrenOf target, ¬ conf.Below c x) :
    ((mergeSections process rules source target ts).apply conf).2.verbatim? x =
      conf.verbatim? x := by
  have confined := confined_mergeSections process rules source ts named wf writable h sec
  have keeps : KeepsOwn target conf ((mergeSections process rules source target ts).apply conf).2 :=
    keepsOwn_mergeSections named wf writable h sec
  by_cases below : conf.Below target x
  · rcases below.cases_top wf with rfl | ⟨d', k, c, h', hc, hb⟩
    · exact keeps.value
    · cases k with
      | sectionKind =>
        rw [← childrenOf_eq h'] at hc
        exact absurd hb (out c hc)
      | attributeKind =>
        obtain ⟨f, hf, kind, -⟩ := wf.listed target d' _ c h' hc
        obtain rfl := hb.eq_of_attribute wf hf kind
        rw [← attributesOf_eq h'] at hc
        rw [verbatim?, verbatim?, keeps.same x hc]
  · rw [verbatim?, verbatim?, confined.outside x e live below, live]

variable (process) in
mutual

/-- Flags tell what a merge of a section has changed, however it ends. -/
lemma flags_mergeSection (wfs : source.WellFormed) (appends : rules.appends = false) :
    ∀ (t : Subtree) {conf : Configuration} {target : Nat}, Offered rules source t →
      Receptive rules conf target →
      Flags conf ((mergeSection process rules source target t).apply conf).2
  | .mk id name value attributes children, conf, target, offered, r => by
    obtain ⟨d, h, sec⟩ := r.live
    have wf := r.wellFormed
    obtain ⟨-, good, goodChildren⟩ := offered.taken.named wfs
    obtain ⟨offered', apart⟩ := offered.all wfs
    have own := flags_mergeOwn good wf r.writable h sec value
    refine after_mergeSection .refl (fun declared => absurd declared
      (policyOf_ne_replace (sparing_tameAttribute rules) process wf r.tame target)) own
      (flags_mergeSections wfs appends children offered' apart r) ?_
    obtain ⟨conf₁, conf₂, run₁, run₂, confined, -⟩ :=
      mergeOwn_spec (.mk id name value attributes children) wf r.writable h sec good
    rw [Subtree.value] at run₁
    rw [Subtree.attributes] at run₂
    have run : (mergeValue target value >>= fun _ =>
        mergeAttributes target [] attributes).apply conf = (.ok (), conf₂) :=
      (apply_bind_ok run₁).trans run₂
    have keeps := keepsChildren_mergeOwn wf h value attributes
    have grown := extends_mergeOwn (sparing_tameAttribute rules).respects good
      (Shape.allAttributes_iff.1 offered.tame).1 wf r.tame h sec value
    rw [run] at own keeps grown
    have r₂ := r.extend grown (confined.readOnly.trans r.writable)
    rw [(apply_bind_ok run₁).trans (apply_bind_ok run₂)]
    refine own.trans (flags_mergeSections wfs appends children offered' apart r₂) fun x e he => ?_
    -- What lies below a child section is left by the attributes, and all else by the child
    -- sections.
    by_cases inside : ∃ c ∈ conf.childrenOf target, conf.Below c x
    · obtain ⟨c, hc, below⟩ := inside
      exact .inl (by rw [verbatim?, verbatim?, keeps.same c hc x below])
    · obtain ⟨d₂, h₂, sec₂⟩ := r₂.live
      obtain ⟨f, hf, -⟩ := grown.kept x e he
      refine .inr (verbatim?_mergeSections goodChildren r₂.wellFormed r₂.writable h₂ sec₂ hf
        fun c hc below => ?_)
      rw [keeps.children] at hc
      exact inside ⟨c, hc, ((keeps.same c hc).below_iff wf r₂.wellFormed).1 below⟩

/-- The flags tell of a merge of sections. -/
lemma flags_mergeSections (wfs : source.WellFormed) (appends : rules.appends = false) :
    ∀ (ts : List Subtree) {conf : Configuration} {target : Nat},
      (∀ t ∈ ts, Offered rules source t) → (Subtree.shapes ts).Pairwise (KeysDiffer rules) →
      Receptive rules conf target →
      Flags conf ((mergeSections process rules source target ts).apply conf).2
  | [], conf, target, _, _, _ => .refl
  | t :: ts, conf, target, offered, apart, r => by
    obtain ⟨d, h, sec⟩ := r.live
    have wf := r.wellFormed
    have offered' := offered t List.mem_cons_self
    have offeredRest := fun x hx => offered x (List.mem_cons_of_mem _ hx)
    have named := offered'.taken.named wfs
    obtain ⟨differ, apartRest⟩ := List.pairwise_cons.1 apart
    have first : Flags conf ((mergeNext process rules source target t).apply conf).2 :=
      after_mergeNext .refl
        (fun c found => flags_mergeSection wfs appends t offered' (r.child (mem_of_matchOf found)))
        (flags_copySubtree t target conf .refl).1
    rw [mergeSections_cons]
    refine after_bind (fun _ _ run => ?_) fun _ conf₁ run => ?_
    all_goals rw [run] at first
    · exact first
    obtain ⟨grown, r₁⟩ := r.next wfs offered' run
    refine first.trans (flags_mergeSections wfs appends ts offeredRest apartRest r₁)
      fun x e he => ?_
    cases of_mergeNext named wf r.writable h sec run with
    | copied _ _ appended => exact .inl (appended.verbatim?_eq he)
    | @merged c _ _ found hc merged =>
      by_cases below : conf.Below c x
      · obtain ⟨f, hf, -⟩ := grown.kept x e he
        have evolves := Evolves.changes ((Makes.mergeNext process rules source target t).of_run run)
        have below' := evolves.below r₁.wellFormed below hf
        have same := sameBelow_rest r wfs appends offered' offeredRest differ run found
        exact .inr (by rw [verbatim?, verbatim?, same x below'])
      · obtain ⟨ce, hce, kind⟩ := (r.child hc).live
        have confined := confined_mergeSection process rules source t named wf r.writable hce kind
        rw [merged] at confined
        exact .inl (by rw [verbatim?, verbatim?, confined.outside x e he below, he])

end

end Edit

/-! ## Whole configurations -/

namespace Configuration

variable {a b : Configuration}

/-- No node of a configuration that is not modified is. -/
lemma modified_eq_false (h : conf.isModified = false) {x : Nat} (live : conf.live? x = some d) :
    d.modified = false := by
  refine Bool.eq_false_iff.2 fun flag => ?_
  rw [isModified_iff.2 ⟨x, d, live, flag⟩] at h
  cases h

/-- Flags after a merge are exact. Let no node be modified, let no policy and no match attribute in
both configurations have references, and no policy be `replace`, and let the sections of one name
among siblings in the source have match attributes with different values. Then however a merge ends,
a node that was there before is flagged if and only if it has another value, other attributes or
other child sections, and all nodes that were added are flagged. -/
theorem overrideBy_flags (ha : Reachable a) (hb : Reachable b) (process : Host)
    (appends : rules.appends = false) (unmodified : a.isModified = false)
    (tameA : a.AllAttributes (TameAttribute rules)) (tameB : b.AllAttributes (TameAttribute rules))
    (apart : Distinguished rules (b.shape root)) :
    let c := ((Edit.overrideBy process rules b).apply a).2
    (∀ (x : Nat) d, a.live? x = some d → ∃ e, c.live? x = some e ∧
      (e.modified = true ↔ c.verbatim? x ≠ a.verbatim? x ∨ c.attributesOf x ≠ a.attributesOf x ∨
        c.childrenOf x ≠ a.childrenOf x)) ∧
      ∀ x, a.nodes.size ≤ x → x < c.nodes.size → ∃ e, c.live? x = some e ∧ e.modified = true := by
  intro c
  have wfa := ha.wellFormed
  have wfb := hb.wellFormed
  have flags : Flags a c := by
    cases writable : a.readOnly with
    | true =>
      have same : c = a := Edit.Makes.frozen (Edit.Makes.overrideBy process rules b) writable rfl
      rw [same]
      exact .refl
    | false =>
      obtain ⟨d, h, sec, -⟩ := wfa.root
      obtain ⟨e, h', sec', -⟩ := wfb.root
      have offered : Offered rules b (b.subtree root) :=
        ⟨takenFrom_subtree h' sec', apart, tameB.shape wfb h'⟩
      have whole := Edit.flags_mergeSection process wfb appends _ offered
        ⟨wfa, writable, tameA, d, h, sec⟩
      rwa [← overrideBy_apply process wfb h sec] at whole
  refine ⟨fun x d hd => ?_, flags.new⟩
  obtain ⟨e, he, -, flag⟩ := flags.old x d hd
  refine ⟨e, he, flag.trans ?_⟩
  have kinds : (∃ k, e.entries k ≠ d.entries k) ↔
      e.entries .attributeKind ≠ d.entries .attributeKind ∨
        e.entries .sectionKind ≠ d.entries .sectionKind := by
    constructor
    · rintro ⟨k, differs⟩
      cases k
      · exact .inr differs
      · exact .inl differs
    · rintro (differs | differs) <;> exact ⟨_, differs⟩
  rw [kinds, verbatim?_eq he, verbatim?_eq hd, attributesOf_eq he, attributesOf_eq hd,
    childrenOf_eq he, childrenOf_eq hd, modified_eq_false unmodified hd]
  simp

/-- A merge that fails halfway has flagged a section with another value and one more attribute, an
attribute with another value, a section below one that only lets its child sections be merged, and
all new nodes. -/
theorem overrideBy_flags_conflict :
    let a := (withRoot "base").operateAll
      [(.bare, .addSection 0 "server" (some "old")), (.bare, .addAttribute 1 "name" (some "main")),
        (.bare, .addAttribute 1 "port" (some "80")), (.bare, .addSection 0 "log" none),
        (.bare, .addAttribute 4 "_override" (some "sections")), (.bare, .addSection 4 "file" none),
        (.bare, .addSection 0 "data" none), (.bare, .addAttribute 7 "_override" (some "fail")),
        (.bare, .addSection 0 "tail" (some "kept")), (.bare, .resetModified)]
    let b := (withRoot "layer").operateAll
      [(.bare, .addSection 0 "SERVER" (some "new")), (.bare, .addAttribute 1 "name" (some "main")),
        (.bare, .addAttribute 1 "Port" (some "8080")), (.bare, .addAttribute 1 "user" (some "me")),
        (.bare, .addSection 0 "Log" (some "lost")), (.bare, .addSection 5 "File" none),
        (.bare, .addAttribute 6 "size" (some "1")), (.bare, .addSection 0 "server" none),
        (.bare, .addAttribute 8 "name" (some "spare")), (.bare, .addSection 0 "data" (some "lost")),
        (.bare, .addSection 0 "tail" (some "lost"))]
    let c := ((Edit.overrideBy .bare .standard b).apply a).2
    ((Edit.overrideBy .bare .standard b).apply a).1 = .error (.mergeConflict "/data" "_override") ∧
      (List.range c.nodes.size).filter (fun x => (c.live? x).any (·.modified)) =
        [0, 1, 3, 6, 10, 11, 12, 13] ∧
      ∀ (x : Nat) d, a.live? x = some d → ∃ e, c.live? x = some e ∧
        (e.modified = true ↔ c.verbatim? x ≠ a.verbatim? x ∨ c.attributesOf x ≠ a.attributesOf x ∨
          c.childrenOf x ≠ a.childrenOf x) := by
  intro a b c
  have ha : Reachable a := (Reachable.withRoot "base").operateAll _ (by simp [Operation.others])
  have hb : Reachable b := (Reachable.withRoot "layer").operateAll _ (by simp [Operation.others])
  have tameA : a.AllAttributes (TameAttribute .standard) := by decide +kernel
  have tameB : b.AllAttributes (TameAttribute .standard) := by decide +kernel
  have apart : Distinguished .standard (b.shape root) := by decide +kernel
  have exact' := overrideBy_flags ha hb .bare rfl (by decide +kernel) tameA tameB apart
  exact ⟨by decide +kernel, by decide +kernel, exact'.1⟩

end Configuration

end ConfTree
