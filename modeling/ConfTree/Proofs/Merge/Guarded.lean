import ConfTree.Proofs.Merge.Pairing
import ConfTree.Proofs.Tree.Copy

/-!
# Guarded sections

A section is guarded as long as nothing below it has changed since a time, and the sections above it
are where they were and declare the policies that they declared. The nodes that have to stay as they
were are `Frozen`: all below the section, and the policy attributes of the sections above it. Each
primitive edit of another node leaves the section guarded (`Guarded.addNode`,
`Guarded.replaceValue`, `Guarded.emptyNode`).
-/

namespace ConfTree.Configuration

open ConfTree.Text

section

variable (a : Configuration) (rules : Rules) (s : Nat)

/-- The node lies below the section, or declares the policy of the section or of one above it. -/
def Frozen (x : Nat) : Prop :=
  a.Below s x ∨ ∃ p, a.Below p s ∧ a.attribute? p rules.policyAttribute = some x

/-- All that holds the section in its place is as it was in `a`. -/
structure Guarded (conf : Configuration) : Prop where
  wellFormed : conf.WellFormed
  frozen : ∀ x, a.Frozen rules s x → conf.live? x = a.live? x
  /-- The sections above the section have the same parents and the same policy attributes. -/
  above : ∀ (p : Nat) d, a.Below p s → a.live? p = some d →
    ∃ e, conf.live? p = some e ∧ e.kind = d.kind ∧ e.parent = d.parent ∧
      conf.attribute? p rules.policyAttribute = a.attribute? p rules.policyAttribute

end

variable {a conf : Configuration} {rules : Rules} {s : Nat} {sd : NodeData}

/-- The first attribute of a name is one of the attributes, and has the name. -/
lemma of_attribute? {p x : Nat} {pd : NodeData} {name : String} (hp : conf.live? p = some pd)
    (h : conf.attribute? p name = some x) :
    x ∈ pd.entries .attributeKind ∧ conf.isNamed x name = true := by
  have named := List.find?_some h
  have hm := List.mem_of_find?_eq_some h
  rw [attributesOf_eq hp] at hm
  exact ⟨hm, named⟩

/-- The first attribute of a name is a live attribute with this name. -/
lemma live_attribute? (wf : conf.WellFormed) {p x : Nat} {name : String}
    (h : conf.attribute? p name = some x) :
    ∃ d, conf.live? x = some d ∧ d.kind = .attributeKind ∧ d.parent = some p ∧
      sameName d.name (trim name) = true := by
  cases hp : conf.live? p with
  | none =>
    rw [attribute?, attributesOf, hp] at h
    cases h
  | some pd =>
    obtain ⟨hx, named⟩ := of_attribute? hp h
    obtain ⟨d, live, kind, parent⟩ := wf.listed p pd _ x hp hx
    rw [isNamed_eq live, pairOf_eq live] at named
    exact ⟨d, live, kind, parent, named⟩

/-- The first attribute of a name is the same if the attributes are the same nodes of the same
names. -/
lemma attribute?_congr {conf' : Configuration} {p : Nat} {d d' : NodeData} {name : String}
    (h : conf.live? p = some d) (h' : conf'.live? p = some d')
    (entries : d'.entries .attributeKind = d.entries .attributeKind)
    (names : ∀ c ∈ d.entries .attributeKind, conf'.isNamed c name = conf.isNamed c name) :
    conf'.attribute? p name = conf.attribute? p name := by
  rw [attribute?, attribute?, attributesOf_eq h, attributesOf_eq h', entries]
  exact List.find?_congr names

/-- A section is in its place to begin with. -/
lemma Guarded.refl (wf : a.WellFormed) : a.Guarded rules s a :=
  ⟨wf, fun _ _ => rfl, fun _ d _ hd => ⟨d, hd, rfl, rfl, rfl⟩⟩

/-- What is frozen is live. -/
lemma Frozen.live (wf : a.WellFormed) (hs : a.live? s = some sd) {x : Nat}
    (h : a.Frozen rules s x) : ∃ d, a.live? x = some d := by
  rcases h with hb | ⟨p, hb, h⟩
  · exact hb.live hs
  · obtain ⟨d, hd, -⟩ := live_attribute? wf h
    exact ⟨d, hd⟩

namespace Guarded

/-- Of the entries of a node that is not frozen, only the section itself and policy attributes of
sections above it can be frozen. -/
lemma of_entry (guarded : a.Guarded rules s conf) {t x : Nat} {td : NodeData} {k : Kind}
    (out : ¬ a.Frozen rules s t) (h : conf.live? t = some td) (hx : x ∈ td.entries k)
    (frozen : a.Frozen rules s x) :
    x = s ∨ ∃ p, a.Below p s ∧ a.attribute? p rules.policyAttribute = some x := by
  have same := guarded.frozen x frozen
  rcases frozen with below | above
  · obtain ⟨d, hd, -, hp⟩ := guarded.wellFormed.listed t td k x h hx
    rw [same] at hd
    exact .inl ((below.parent hd hp).resolve_right fun below => out (.inl below))
  · exact .inr above

section

variable (wf : a.WellFormed) (hs : a.live? s = some sd) (guarded : a.Guarded rules s conf)

include wf hs guarded

/-- What lies above a frozen node or above the section is one of them. -/
lemma of_below {x y : Nat} (hb : conf.Below x y) (h : a.Frozen rules s y ∨ a.Below y s) :
    a.Frozen rules s x ∨ a.Below x s := by
  induction hb with
  | self => exact h
  | @step y p d hd hp _ ih =>
    -- The parent of each of these nodes is the same as before, and is one of them.
    refine ih ?_
    rcases h with (below | ⟨q, above, hq⟩) | above
    · rw [guarded.frozen y (.inl below)] at hd
      rcases below.parent hd hp with rfl | below
      · exact .inr (.step hd hp .self)
      · exact .inl (.inl below)
    · rw [guarded.frozen y (.inr ⟨q, above, hq⟩)] at hd
      obtain ⟨e, he, -, parent, -⟩ := live_attribute? wf hq
      rw [hd] at he
      cases he
      rw [hp] at parent
      cases parent
      exact .inr above
    · obtain ⟨yd, hy⟩ := above.live_top wf hs
      obtain ⟨e, he, -, parent, -⟩ := guarded.above y yd above hy
      rw [hd] at he
      cases he
      rw [hp] at parent
      exact .inr (Below.trans (.step hy parent.symm .self) above)

/-- What is frozen is older than all that is new. -/
lemma lt_size {x : Nat} (h : a.Frozen rules s x) : x < conf.nodes.size := by
  obtain ⟨d, hd⟩ := h.live wf hs
  rw [← guarded.frozen x h] at hd
  exact lt_size_of_live hd

omit hs in
/-- A child section of a node that is not frozen is frozen only if it is the section. -/
lemma of_child {t x : Nat} (out : ¬ a.Frozen rules s t) (hx : x ∈ conf.childrenOf t)
    (frozen : a.Frozen rules s x) : x = s := by
  cases h : conf.live? t with
  | none =>
    rw [childrenOf, h] at hx
    cases hx
  | some td =>
    rw [childrenOf_eq h] at hx
    rcases guarded.of_entry out h hx frozen with e | ⟨p, above, hp⟩
    · exact e
    · obtain ⟨d, hd, kind, -⟩ := guarded.wellFormed.listed t td _ x h hx
      obtain ⟨e, he, kind', -⟩ := live_attribute? wf hp
      rw [guarded.frozen x frozen, he] at hd
      cases hd
      rw [kind] at kind'
      cases kind'

/-- An attribute of a node that is not frozen is not frozen, unless it has the name of policy
attributes. -/
lemma not_frozen_attribute (sec : sd.kind = .sectionKind) {t x : Nat} {name : String}
    (out : ¬ a.Frozen rules s t) (hx : x ∈ conf.attributesOf t) (named : conf.isNamed x name = true)
    (other : sameName (trim name) rules.policyName = false) : ¬ a.Frozen rules s x := by
  intro frozen
  cases h : conf.live? t with
  | none =>
    rw [attributesOf, h] at hx
    cases hx
  | some td =>
    rw [attributesOf_eq h] at hx
    obtain ⟨d, hd, kind, -⟩ := guarded.wellFormed.listed t td _ x h hx
    have named' := named
    rw [isNamed_eq hd, pairOf_eq hd] at named'
    rcases guarded.of_entry out h hx frozen with rfl | ⟨p, above, hp⟩
    · rw [guarded.frozen x frozen, hs] at hd
      cases hd
      rw [kind] at sec
      cases sec
    · obtain ⟨pd, hpd⟩ := above.live_top wf hs
      have policy := (of_attribute? hpd hp).2
      rw [guarded.frozen x frozen] at hd
      rw [isNamed_eq hd, pairOf_eq hd] at policy
      have := sameName_trans (sameName_symm named') policy
      rw [Rules.policyName, this] at other
      cases other

end

/-! ## Primitive edits -/

/-- Setting the value of another node leaves the section guarded. -/
lemma replaceValue (guarded : a.Guarded rules s conf) {t : Nat} (value : Option String)
    (out : ¬ a.Frozen rules s t) : a.Guarded rules s (conf.replaceValue t value) := by
  refine ⟨guarded.wellFormed.replaceValue t value, fun x hx => ?_, fun p d above hd => ?_⟩
  · rw [live?_replaceValue, if_neg, guarded.frozen x hx]
    rintro rfl
    exact out hx
  · obtain ⟨e, he, kind, parent, same⟩ := guarded.above p d above hd
    have keep : ∀ (n : Nat) (nd : NodeData), conf.live? n = some nd →
        ∃ f, (conf.replaceValue t value).live? n = some f ∧ f.kind = nd.kind ∧
          f.parent = nd.parent ∧ f.name = nd.name ∧ ∀ k, f.entries k = nd.entries k := by
      intro n nd hn
      rw [live?_replaceValue]
      split
      · rw [hn]
        exact ⟨_, rfl, rfl, rfl, rfl, fun k => by cases k <;> rfl⟩
      · exact ⟨nd, hn, rfl, rfl, rfl, fun _ => rfl⟩
    obtain ⟨f, hf, kind', parent', -, entries⟩ := keep p e he
    refine ⟨f, hf, kind'.trans kind, parent'.trans parent, ?_⟩
    rw [← same]
    refine attribute?_congr he hf (entries _) fun c hc => ?_
    obtain ⟨cd, hcd, -⟩ := guarded.wellFormed.listed p e _ c he hc
    obtain ⟨g, hg, -, -, name, -⟩ := keep c cd hcd
    rw [isNamed_eq hg, isNamed_eq hcd, pairOf_eq hg, pairOf_eq hcd, name]

section

variable (wf : a.WellFormed) (hs : a.live? s = some sd) (guarded : a.Guarded rules s conf)
  {t : Nat} {td : NodeData}

include wf hs guarded

/-- Adding a node below another one leaves the section guarded. -/
lemma addNode {kind : Kind} {name : String} (value : Option String) (h : conf.live? t = some td)
    (sec : td.kind = .sectionKind) (good : GoodName name) (out : ¬ a.Frozen rules s t)
    (other : kind = .attributeKind → sameName name rules.policyName = false) :
    a.Guarded rules s (conf.addNode kind t name value) := by
  refine ⟨guarded.wellFormed.addNode h sec good, fun x hx => ?_, fun p d above hd => ?_⟩
  · have lt := guarded.lt_size wf hs hx
    have hne : x ≠ t := by
      rintro rfl
      exact out hx
    rw [live?_addNode_of_ne h (Nat.ne_of_lt lt) hne, guarded.frozen x hx]
  · obtain ⟨e, he, kind', parent, same⟩ := guarded.above p d above hd
    have keep : ∀ (n : Nat) (nd : NodeData), conf.live? n = some nd →
        ∃ f : NodeData, (conf.addNode kind t name value).live? n = some f ∧ f.kind = nd.kind ∧
          f.parent = nd.parent ∧ f.name = nd.name ∧ ∀ k, f.entries k =
            if n = t ∧ k = kind then nd.entries k ++ [conf.nodes.size] else nd.entries k :=
      fun n nd hn => live?_addNode_old h sec hn
    obtain ⟨f, hf, kind'', parent', -, entries⟩ := keep p e he
    refine ⟨f, hf, kind''.trans kind', parent'.trans parent, ?_⟩
    have names : ∀ c ∈ e.entries .attributeKind,
        (conf.addNode kind t name value).isNamed c rules.policyAttribute =
          conf.isNamed c rules.policyAttribute := by
      intro c hc
      obtain ⟨cd, hcd, -⟩ := guarded.wellFormed.listed p e _ c he hc
      obtain ⟨g, hg, -, -, name', -⟩ := keep c cd hcd
      rw [isNamed_eq hg, isNamed_eq hcd, pairOf_eq hg, pairOf_eq hcd, name']
    rw [← same, attribute?, attribute?, attributesOf_eq hf, attributesOf_eq he, entries]
    split
    · -- The new attribute comes last, and declares no policy.
      rename_i new
      have declares : (conf.addNode kind t name value).isNamed conf.nodes.size
          rules.policyAttribute = false := by
        rw [isNamed_eq (live?_addNode_new h), pairOf_eq (live?_addNode_new h)]
        exact other new.2.symm
      rw [List.find?_append, List.find?_congr names, List.find?_cons_of_neg (by simp [declares]),
        List.find?_nil, Option.or_none]
    · exact List.find?_congr names

/-- Emptying another section that is not above the section leaves it guarded. -/
lemma emptyNode (h : conf.live? t = some td) (sec : td.kind = .sectionKind)
    (out : ¬ a.Frozen rules s t) (aside : ¬ a.Below t s) :
    a.Guarded rules s (conf.emptyNode t) := by
  have apart : ∀ x, a.Frozen rules s x ∨ a.Below x s → ¬ conf.Below t x := by
    intro x hx hb
    rcases guarded.of_below wf hs hb hx with frozen | above
    · exact out frozen
    · exact aside above
  have keep : ∀ x, ¬ conf.Below t x → (conf.emptyNode t).live? x = conf.live? x := by
    intro x hb
    rw [(guarded.wellFormed.live?_emptyNode h x).2 fun hn => hb hn.1]
    have hne : t ≠ x := by
      rintro rfl
      exact hb .self
    simp only [if_neg hne, Option.map_id']
  refine ⟨guarded.wellFormed.emptyNode h, fun x hx => ?_, fun p d above hd => ?_⟩
  · rw [keep x (apart x (.inl hx)), guarded.frozen x hx]
  · obtain ⟨e, he, kind, parent, same⟩ := guarded.above p d above hd
    have he' := (keep p (apart p (.inr above))).trans he
    refine ⟨e, he', kind, parent, ?_⟩
    rw [← same]
    refine attribute?_congr he he' rfl fun c hc => ?_
    -- No attribute of a section above lies below the emptied one.
    obtain ⟨cd, hcd, ck, cp⟩ := guarded.wellFormed.listed p e _ c he hc
    have outside : ¬ conf.Below t c := by
      intro hb
      rcases hb.parent hcd cp with rfl | hb
      · rw [h] at hcd
        cases hcd
        rw [sec] at ck
        cases ck
      · exact apart p (.inr above) hb
    have hc' := (keep c outside).trans hcd
    rw [isNamed_eq hc', isNamed_eq hcd, pairOf_eq hc', pairOf_eq hcd]

end

end Guarded

end ConfTree.Configuration
