import ConfTree.Proofs.Merge.Idempotent

/-!
# Beside a merge

What the parts of a merge leave alone. To lay a value and attributes over a section leaves its child
sections (`keepsChildren_mergeOwn`), to copy a subtree below a section adds a child section and
changes nothing else (`appended_copySubtree`), and a merge of child sections leaves the value and
the attributes of the section (`keepsOwn_mergeSections`). However a merge into a section ends, it is
confined to the section (`confined_mergeSection`).
-/

namespace ConfTree

open ConfTree.Configuration

namespace Configuration

/-! ## All below a node -/

/-- All below the node is as it was. -/
def SameBelow (top : Nat) (before after : Configuration) : Prop :=
  ∀ x, before.Below top x → after.live? x = before.live? x

variable {conf conf' conf'' : Configuration} {top : Nat} {d : NodeData}

namespace SameBelow

/-- Nothing changes below a node if nothing is done. -/
lemma refl : SameBelow top conf conf := fun _ _ => rfl

/-- What lay below the node still does. -/
lemma below (same : SameBelow top conf conf') {x : Nat} (h : conf.Below top x) :
    conf'.Below top x := by
  induction h with
  | self => exact .self
  | step hd hp above ih => exact .step ((same _ (.step hd hp above)).trans hd) hp ih

/-- Nothing lies below the node but what lay below it. -/
lemma below_iff (wf : conf.WellFormed) (wf' : conf'.WellFormed) (same : SameBelow top conf conf')
    {x : Nat} : conf'.Below top x ↔ conf.Below top x := by
  refine ⟨fun h => ?_, same.below⟩
  induction h with
  | self => exact .self
  | @step x p d hd hp _ above =>
    -- The parent lists the node, and it lists what it listed before.
    obtain ⟨-, pd, hpd, -⟩ := wf'.parent hd hp
    have hm := wf'.mem_entries hd hp hpd
    rw [same p above] at hpd
    exact above.trans (.of_mem_entries wf hpd hm)

/-- What stays twice stays. -/
lemma trans (same : SameBelow top conf conf') (same' : SameBelow top conf' conf'') :
    SameBelow top conf conf'' :=
  fun x h => (same' x (same.below h)).trans (same x h)

/-- What stays below a node stays below each node there. -/
lemma of_below (same : SameBelow top conf conf') {id : Nat} (h : conf.Below top id) :
    SameBelow id conf conf' :=
  fun x hx => same x (h.trans hx)

/-- A section below which all stays has the same shape. -/
lemma shape_eq (wf : conf.WellFormed) (wf' : conf'.WellFormed) (same : SameBelow top conf conf')
    (h : conf.live? top = some d) : conf'.shape top = conf.shape top :=
  shape_congr wf wf' h fun x hx => by rw [view, view, same x hx]

end SameBelow

/-- A change of an entry leaves all below another one. -/
lemma Confined.sameBelow (wf : conf.WellFormed) {p c x : Nat} {pd : NodeData} {k l : Kind}
    (confined : Confined c conf conf') (hp : conf.live? p = some pd) (hc : c ∈ pd.entries k)
    (hx : x ∈ pd.entries l) (hne : x ≠ c) : SameBelow x conf conf' := by
  intro y hb
  obtain ⟨e, live, -⟩ := wf.listed p pd l x hp hx
  obtain ⟨f, hf⟩ := hb.live live
  rw [hf, confined.outside y f hf (not_below_of_ne wf hp hc hx hne hb)]

/-- As long as an old node is live, it lies below the nodes that it lay below. -/
lemma Evolves.below (wf' : conf'.WellFormed) (evolves : conf.Evolves conf') {x : Nat}
    (h : conf.Below top x) {e : NodeData} (live : conf'.live? x = some e) : conf'.Below top x := by
  induction h generalizing e with
  | self => exact .self
  | @step x p d hd hp _ ih =>
    obtain ⟨f, hf, -, -, parent⟩ := evolves x d (live?_eq_some.1 hd).1
    obtain ⟨he, alive⟩ := live?_eq_some.1 live
    rw [hf] at he
    cases he
    have up := (parent alive).trans hp
    obtain ⟨-, pd, hpd, -⟩ := wf'.parent live up
    exact .step live up (ih hpd)

/-- Nothing lies below an attribute. -/
lemma Below.eq_of_attribute (wf : conf.WellFormed) {id : Nat} (h : conf.Below top id)
    (live : conf.live? top = some d) (kind : d.kind = .attributeKind) : id = top := by
  rcases h.cases_top wf with same | ⟨e, k, c, he, hc, -⟩
  · exact same
  · rw [live] at he
    cases he
    rw [NodeData.entries_of_attribute kind] at hc
    cases hc

/-- A section that lies below another one lies below a child section of it. -/
lemma Below.exists_child (wf : conf.WellFormed) {id : Nat} (h : conf.Below top id)
    (live : conf.live? id = some d) (sec : d.kind = .sectionKind) (hne : id ≠ top) :
    ∃ c ∈ conf.childrenOf top, conf.Below c id := by
  obtain ⟨e, k, c, he, hc, hb⟩ := (h.cases_top wf).resolve_left hne
  cases k with
  | sectionKind => exact ⟨c, by rw [childrenOf_eq he]; exact hc, hb⟩
  | attributeKind =>
    obtain ⟨f, hf, kind, -⟩ := wf.listed top e _ c he hc
    obtain rfl := hb.eq_of_attribute wf hf kind
    rw [live] at hf
    cases hf
    rw [sec] at kind
    cases kind

/-- An old node that is dead stays dead. -/
lemma Evolves.dead (evolves : conf.Evolves conf') {x : Nat} (old : x < conf.nodes.size)
    (h : conf.live? x = none) : conf'.live? x = none := by
  have hd : conf.nodes[x]? = some conf.nodes[x] := Array.getElem?_eq_getElem old
  obtain ⟨e, he, -, dead, -⟩ := evolves x _ hd
  have deleted : conf.nodes[x].deleted = true := by
    rw [live?, hd, Option.filter_eq_none_iff] at h
    simpa using h
  rw [live?, he, Option.filter_eq_none_iff]
  simp [dead deleted]

/-- No index is ever given up. -/
lemma Evolves.size_le (evolves : conf.Evolves conf') : conf.nodes.size ≤ conf'.nodes.size := by
  by_contra less
  obtain ⟨e, he, -⟩ := evolves conf'.nodes.size _ (Array.getElem?_eq_getElem (by omega))
  rw [Array.getElem?_eq_none (Nat.le_refl _)] at he
  cases he

/-! ## The parts of a section -/

/-- The section has the child sections that it had, with all below them. -/
structure KeepsChildren (id : Nat) (before after : Configuration) : Prop where
  children : after.childrenOf id = before.childrenOf id
  same : ∀ c ∈ before.childrenOf id, SameBelow c before after

/-- The section has the value and the attributes that it had. -/
structure KeepsOwn (id : Nat) (before after : Configuration) : Prop where
  live : ∀ d, before.live? id = some d → ∃ e, after.live? id = some e ∧ e.kind = d.kind
  value : after.verbatim? id = before.verbatim? id
  attributes : after.attributesOf id = before.attributesOf id
  same : ∀ x ∈ before.attributesOf id, after.live? x = before.live? x

/-- Nothing but child sections of the target is new, and they come last. -/
structure Appended (target : Nat) (before after : Configuration) : Prop where
  size : before.nodes.size ≤ after.nodes.size
  same : ∀ x < before.nodes.size, x ≠ target → after.live? x = before.live? x
  own : ∀ d, before.live? target = some d → ∃ e, after.live? target = some e ∧ e.kind = d.kind ∧
    e.value = d.value ∧ e.entries .attributeKind = d.entries .attributeKind ∧
    d.entries .sectionKind <+: e.entries .sectionKind

namespace KeepsOwn

variable {id : Nat}

/-- A section keeps its own if nothing is done. -/
lemma refl : KeepsOwn id conf conf := ⟨fun d h => ⟨d, h, rfl⟩, rfl, rfl, fun _ _ => rfl⟩

/-- What is kept twice is kept. -/
lemma trans (keeps : KeepsOwn id conf conf') (keeps' : KeepsOwn id conf' conf'') :
    KeepsOwn id conf conf'' := by
  refine ⟨fun d h => ?_, keeps'.value.trans keeps.value, keeps'.attributes.trans keeps.attributes,
    fun x hx => ?_⟩
  · obtain ⟨e, he, kind⟩ := keeps.live d h
    obtain ⟨f, hf, kind'⟩ := keeps'.live e he
    exact ⟨f, hf, kind'.trans kind⟩
  · exact (keeps'.same x (keeps.attributes ▸ hx)).trans (keeps.same x hx)

/-- A node that is as it was keeps what it has if its attributes are as they were. -/
lemma of_live?_eq (h : conf'.live? id = conf.live? id)
    (same : ∀ x ∈ conf.attributesOf id, conf'.live? x = conf.live? x) : KeepsOwn id conf conf' := by
  refine ⟨fun d hd => ⟨d, h.trans hd, rfl⟩, ?_, ?_, same⟩
  · rw [verbatim?, verbatim?, h]
  · rw [attributesOf, attributesOf, h]

/-- A section below which all stays keeps its own. -/
lemma of_sameBelow (wf : conf.WellFormed) (same : SameBelow id conf conf')
    (h : conf.live? id = some d) : KeepsOwn id conf conf' := by
  refine .of_live?_eq (same id .self) fun x hx => same x ?_
  rw [attributesOf_eq h] at hx
  exact .of_mem_entries wf h hx

/-- A section that keeps its own looks as before in its attributes. -/
lemma shape_attributes (wf : conf.WellFormed) (wf' : conf'.WellFormed)
    (keeps : KeepsOwn id conf conf') (h : conf.live? id = some d) :
    (conf'.shape id).attributes = (conf.shape id).attributes := by
  obtain ⟨e, he, -⟩ := keeps.live d h
  rw [shape_eq wf' he, shape_eq wf h, Shape.attributes, Shape.attributes, ← attributesOf_eq he,
    keeps.attributes, ← attributesOf_eq h]
  refine List.map_congr_left fun x hx => ?_
  rw [pairOf, pairOf, nameOf, nameOf, Configuration.verbatim?, Configuration.verbatim?,
    keeps.same x hx]

/-- A section keeps its own if a change is confined to another section that is not above it. -/
lemma of_confined (wf : conf.WellFormed) (confined : Confined top conf conf') {td : NodeData}
    (ht : conf.live? top = some td) (sec : td.kind = .sectionKind) (h : conf.live? id = some d)
    (outside : ¬ conf.Below top id) : KeepsOwn id conf conf' := by
  refine .of_live?_eq ((confined.outside id d h outside).trans h.symm) fun x hx => ?_
  rw [attributesOf_eq h] at hx
  obtain ⟨e, he, kind, parent⟩ := wf.listed id d _ x h hx
  rw [he]
  refine confined.outside x e he fun hb => ?_
  rcases hb.parent he parent with rfl | hb
  · -- An attribute is no section.
    rw [ht] at he
    cases he
    rw [sec] at kind
    cases kind
  · exact outside hb

/-- A section keeps its own when a child section of it is changed. -/
lemma of_child (wf : conf.WellFormed) (confined : Confined top conf conf')
    (h : conf.live? id = some d) (hc : top ∈ d.entries .sectionKind) : KeepsOwn id conf conf' := by
  obtain ⟨td, ht, sec, -⟩ := wf.listed id d _ top h hc
  exact .of_confined wf confined ht sec h (not_below_of_mem_entries wf h hc)

end KeepsOwn

namespace Appended

variable {target : Nat}

/-- The target keeps its value and its attributes. -/
lemma keepsOwn (wf : conf.WellFormed) (appended : Appended target conf conf')
    (h : conf.live? target = some d) : KeepsOwn target conf conf' := by
  obtain ⟨e, he, kind, value, attributes, -⟩ := appended.own d h
  refine ⟨fun d' h' => ?_, ?_, ?_, fun x hx => ?_⟩
  · rw [h] at h'
    cases h'
    exact ⟨e, he, kind⟩
  · rw [verbatim?_eq he, verbatim?_eq h, value]
  · rw [attributesOf_eq he, attributesOf_eq h, attributes]
  · rw [attributesOf_eq h] at hx
    obtain ⟨f, hf, -⟩ := wf.listed target d _ x h hx
    have := wf.lt_of_mem_entries h hx
    exact appended.same x (lt_size_of_live hf) (by omega)

/-- No node has another value. -/
lemma verbatim?_eq (appended : Appended target conf conf') {x : Nat} (h : conf.live? x = some d) :
    conf'.verbatim? x = conf.verbatim? x := by
  by_cases own : x = target
  · subst own
    obtain ⟨e, he, -, value, -⟩ := appended.own d h
    rw [Configuration.verbatim?_eq he, Configuration.verbatim?_eq h, value]
  · rw [verbatim?, verbatim?, appended.same x (lt_size_of_live h) own]

/-- All below an entry of the target is as it was. -/
lemma sameBelow (wf : conf.WellFormed) (appended : Appended target conf conf')
    (h : conf.live? target = some d) {x : Nat} {k : Kind} (hx : x ∈ d.entries k) :
    SameBelow x conf conf' := by
  intro y hb
  obtain ⟨e, live, -⟩ := wf.listed target d k x h hx
  obtain ⟨f, hf⟩ := hb.live live
  have := wf.lt_of_mem_entries h hx
  have := hb.le wf
  exact appended.same y (lt_size_of_live hf) (by omega)

/-- Another section keeps its value and its attributes. -/
lemma keepsOwn_of_ne (wf : conf.WellFormed) (appended : Appended target conf conf')
    (h : conf.live? target = some d) (sec : d.kind = .sectionKind) {id : Nat} {e : NodeData}
    (live : conf.live? id = some e) (hne : id ≠ target) : KeepsOwn id conf conf' := by
  refine .of_live?_eq (appended.same id (lt_size_of_live live) hne) fun x hx => ?_
  rw [attributesOf_eq live] at hx
  obtain ⟨f, hf, kind, -⟩ := wf.listed id e _ x live hx
  refine appended.same x (lt_size_of_live hf) ?_
  -- An attribute is no section.
  rintro rfl
  rw [h] at hf
  cases hf
  rw [sec] at kind
  cases kind

/-- The new child sections look as what the target is lengthened by. -/
lemma exists_copies (wf : conf.WellFormed) (wf' : conf'.WellFormed)
    (appended : Appended target conf conf') (h : conf.live? target = some d) {shapes : List Shape}
    (shape : conf'.shape target = (conf.shape target).extend [] shapes) :
    ∃ copies, conf'.childrenOf target = conf.childrenOf target ++ copies ∧
      copies.map conf'.shape = shapes := by
  obtain ⟨e, he, -, -, -, copies, children⟩ := appended.own d h
  have old : (d.entries .sectionKind).map conf'.shape =
      (d.entries .sectionKind).map conf.shape := by
    refine List.map_congr_left fun c hc => ?_
    obtain ⟨f, hf, -⟩ := wf.listed target d _ c h hc
    exact (appended.sameBelow wf h hc).shape_eq wf wf' hf
  have lists := congrArg Shape.children shape
  rw [shape_eq wf' he, shape_eq wf h, ← children] at lists
  simp only [Shape.children, Shape.extend, List.map_append, old,
    List.append_cancel_left_eq] at lists
  exact ⟨copies, by rw [childrenOf_eq he, childrenOf_eq h, children], lists⟩

/-- A child section was one before, or is the new one. -/
lemma of_child (wf : conf.WellFormed) (wf' : conf'.WellFormed)
    (appended : Appended target conf conf') (h : conf.live? target = some d) {s : Shape}
    (shape : conf'.shape target = (conf.shape target).extend [] [s]) {x : Nat}
    (hx : x ∈ conf'.childrenOf target) : x ∈ conf.childrenOf target ∨ conf'.shape x = s := by
  obtain ⟨copies, children, shapes⟩ := appended.exists_copies wf wf' h shape
  rw [children, List.mem_append] at hx
  refine hx.imp_right fun hx => ?_
  have hm := List.mem_map_of_mem (f := conf'.shape) hx
  rw [shapes] at hm
  exact List.mem_singleton.1 hm

/-- A child section that is not new was one before. -/
lemma old_child (wf : conf.WellFormed) (wf' : conf'.WellFormed)
    (appended : Appended target conf conf') (h : conf.live? target = some d) {x : Nat}
    (hx : x ∈ conf'.childrenOf target) (old : x < conf.nodes.size) :
    x ∈ conf.childrenOf target := by
  obtain ⟨e, he, -⟩ := appended.own d h
  rw [childrenOf_eq he] at hx
  have := wf'.lt_of_mem_entries he hx
  obtain ⟨f, hf, kind, parent⟩ := wf'.listed target e _ x he hx
  rw [appended.same x old (by omega)] at hf
  rw [childrenOf_eq h, ← kind]
  exact wf.mem_entries hf parent h

end Appended

/-! ## Changes of the value and of attributes -/

section

variable {a : Configuration} {target id : Nat} {td : NodeData}

/-- Nothing below a child section is changed with another node. -/
lemma KeepsChildren.replaceValue (keeps : KeepsChildren target a conf)
    (out : ∀ c ∈ a.childrenOf target, ¬ a.Below c id) (value : Option String) :
    KeepsChildren target a (conf.replaceValue id value) := by
  refine ⟨?_, fun c hc x hx => ?_⟩
  · rw [← keeps.children, childrenOf, childrenOf, live?_replaceValue]
    split
    · cases conf.live? target <;> rfl
    · rfl
  · rw [live?_replaceValue, if_neg, keeps.same c hc x hx]
    rintro rfl
    exact out c hc hx

/-- Nothing below a child section is changed with a new attribute. -/
lemma KeepsChildren.addAttribute (wf : a.WellFormed) (ht : a.live? target = some td)
    (keeps : KeepsChildren target a conf) {pd : NodeData} (h : conf.live? target = some pd)
    (sec : pd.kind = .sectionKind) (name : String) (value : Option String) :
    KeepsChildren target a (conf.addNode .attributeKind target name value) := by
  refine ⟨?_, fun c hc x hx => ?_⟩
  · rw [← keeps.children, childrenOf_eq (live?_addNode_parent h), childrenOf_eq h,
      NodeData.entries_push sec, if_neg (by simp)]
  · have same := keeps.same c hc x hx
    rw [childrenOf_eq ht] at hc
    obtain ⟨e, live, -⟩ := wf.listed target td _ c ht hc
    obtain ⟨f, hf⟩ := hx.live live
    have lt := lt_size_of_live (same.trans hf)
    have := wf.lt_of_mem_entries ht hc
    have := hx.le wf
    rw [live?_addNode_of_ne h (by omega) (by omega), same]

/-- An attribute of the target does not lie below a child section. -/
lemma KeepsChildren.not_below (wf : a.WellFormed) (wf' : conf.WellFormed)
    (ht : a.live? target = some td) (keeps : KeepsChildren target a conf) {x : Nat}
    (hx : x ∈ conf.attributesOf target) : ∀ c ∈ a.childrenOf target, ¬ a.Below c x := by
  intro c hc hb
  have same := keeps.same c hc x hb
  rw [childrenOf_eq ht] at hc
  cases h : conf.live? target with
  | none =>
    rw [attributesOf, h] at hx
    cases hx
  | some d =>
    rw [attributesOf_eq h] at hx
    obtain ⟨e, he, kind, parent⟩ := wf'.listed target d _ x h hx
    rw [he] at same
    rcases hb.parent same.symm parent with rfl | above
    · obtain ⟨f, hf, kind', -⟩ := wf.listed target td _ x ht hc
      rw [← same] at hf
      cases hf
      rw [kind] at kind'
      cases kind'
    · exact not_below_of_mem_entries wf ht hc above

end

end Configuration

/-! ## Values and attributes -/

namespace Edit

variable {a conf : Configuration} {target : Nat} {td : NodeData}

/-- What a merge of values and attributes keeps. -/
def OwnOnly (a : Configuration) (target : Nat) (conf : Configuration) : Prop :=
  conf.WellFormed ∧ KeepsChildren target a conf

/-- Setting the value of a node outside of the child sections is a matter of the target's own. -/
lemma ownOnly_setValue {id : Nat} (out : ∀ c ∈ a.childrenOf target, ¬ a.Below c id)
    (value : Option String) : Keeps (OwnOnly a target) (setValue id value) fun _ => True :=
  .checked fun _ _ keeps _ =>
    ⟨⟨keeps.1.replaceValue id value, keeps.2.replaceValue out value⟩, trivial⟩

section

variable (wf : a.WellFormed) (ht : a.live? target = some td)

include wf ht

/-- Merging the value is a matter of the target's own. -/
lemma ownOnly_mergeValue (value : Option String) :
    Keeps (OwnOnly a target) (mergeValue target value) fun _ => True := by
  refine .bind .get fun _ _ => .ite (ownOnly_setValue (fun c hc => ?_) value) (.pure trivial)
  rw [childrenOf_eq ht] at hc
  exact not_below_of_mem_entries wf ht hc

/-- Adding an attribute is a matter of the target's own. -/
lemma ownOnly_addAttribute (name : String) (value : Option String) :
    Keeps (OwnOnly a target) (addAttribute target name value) fun _ => True := by
  refine .checked fun conf stored keeps h => ?_
  obtain ⟨-, -, good, pd, hp, sec⟩ := appendable_iff.1 h
  exact ⟨⟨keeps.1.addNode hp sec good, keeps.2.addAttribute wf ht hp sec _ value⟩, trivial⟩

/-- Merging attributes is a matter of the target's own. -/
lemma ownOnly_mergeAttributes (attributes : List Attribute) (seen : List String) :
    Keeps (OwnOnly a target) (mergeAttributes target seen attributes) fun _ => True := by
  induction attributes generalizing seen with
  | nil => exact .pure trivial
  | cons b attributes ih =>
    rw [mergeAttributes]
    refine .bind .get fun conf keeps => ?_
    dsimp only
    split
    · rename_i id found
      have hm := List.mem_of_mem_filter (List.mem_of_getElem? found)
      have out := keeps.2.not_below wf keeps.1 ht hm
      exact .ite (.bind (ownOnly_setValue out _) fun _ _ => ih _) (ih _)
    · exact .bind (ownOnly_addAttribute wf ht b.name b.value) fun _ _ => ih _

/-- A merge of the value and the attributes leaves the child sections, however it ends. -/
lemma keepsChildren_mergeOwn (value : Option String) (attributes : List Attribute) :
    KeepsChildren target a ((mergeValue target value >>= fun _ =>
      mergeAttributes target [] attributes).apply a).2 := by
  have whole : Keeps (OwnOnly a target) (mergeValue target value >>= fun _ =>
      mergeAttributes target [] attributes) fun _ => True :=
    .bind (ownOnly_mergeValue wf ht value) fun _ _ => ownOnly_mergeAttributes wf ht attributes []
  exact (whole a ⟨wf, rfl, fun _ _ => .refl⟩).1.2

end

/-! ## Copies -/

/-- A node is added as a child section of the target, or below a new node. -/
lemma appended_append (ht : a.live? target = some td) {kind : Kind} {parent : Nat}
    (place : parent = target ∧ kind = .sectionKind ∨ a.nodes.size ≤ parent) (name : String)
    (value : Option String) :
    Keeps (Appended target a) (append kind parent name value) fun id => a.nodes.size ≤ id := by
  refine .checked fun conf stored appended h => ?_
  obtain ⟨-, -, -, pd, hp, sec⟩ := appendable_iff.1 h
  have old := lt_size_of_live ht
  have size := appended.size
  refine ⟨⟨?_, fun x hx hne => ?_, fun d hd => ?_⟩, size⟩
  · have grown : (conf.addNode kind parent stored value).nodes.size = conf.nodes.size + 1 := by
      simp [addNode, modifyNode]
    dsimp only
    omega
  · rw [live?_addNode_of_ne hp (by omega) (by omega), appended.same x hx hne]
  · obtain ⟨e, he, kind', value', attributes, children⟩ := appended.own d hd
    rcases place with ⟨rfl, rfl⟩ | new
    · rw [hp] at he
      cases he
      refine ⟨_, live?_addNode_parent hp, (NodeData.kind_push true).trans kind', value', ?_, ?_⟩
      · rw [NodeData.entries_push sec, if_neg (by simp), attributes]
      · rw [NodeData.entries_push sec, if_pos rfl]
        exact children.trans (List.prefix_append _ _)
    · rw [live?_addNode_of_ne hp (by omega) (by omega)]
      exact ⟨e, he, kind', value', attributes, children⟩

/-- Attributes of a new section are new. -/
lemma appended_copyAttributes (ht : a.live? target = some td) {parent : Nat}
    (new : a.nodes.size ≤ parent) (attributes : List Attribute) :
    Keeps (Appended target a) (copyAttributes parent attributes) fun _ => True := by
  induction attributes with
  | nil => exact .pure trivial
  | cons b attributes ih => exact .bind (appended_append ht (.inr new) b.name b.value) fun _ _ => ih

mutual

/-- A copy of a subtree adds a child section and changes nothing else. -/
lemma keeps_appended_copySubtree (ht : a.live? target = some td) : ∀ (t : Subtree) {parent : Nat},
    parent = target ∨ a.nodes.size ≤ parent →
    Keeps (Appended target a) (copySubtree parent t) fun _ => True
  | .mk _ name value attributes children, _, place => by
    rw [copySubtree]
    have place' := place.imp_left fun h => And.intro h (rfl : Kind.sectionKind = .sectionKind)
    refine .bind (appended_append ht place' name value) fun id new => ?_
    refine .bind (appended_copyAttributes ht new attributes) fun _ _ => ?_
    exact .bind (keeps_appended_copySubtrees ht children (.inr new)) fun _ _ => .pure trivial

/-- Trees below the target or below a new section are appended. -/
lemma keeps_appended_copySubtrees (ht : a.live? target = some td) : ∀ (ts : List Subtree)
    {parent : Nat}, parent = target ∨ a.nodes.size ≤ parent →
    Keeps (Appended target a) (copySubtrees parent ts) fun _ => True
  | [], _, _ => .pure trivial
  | t :: ts, _, place =>
    .bind (keeps_appended_copySubtree ht t place) fun _ _ =>
      keeps_appended_copySubtrees ht ts place

end

/-- A tree that is copied below the target is appended. -/
lemma appended_copySubtree (ht : a.live? target = some td) (t : Subtree) :
    Appended target a ((copySubtree target t).apply a).2 := by
  refine (keeps_appended_copySubtree ht t (.inl rfl) a ⟨Nat.le_refl _, fun _ _ _ => rfl, ?_⟩).1
  exact fun d hd => ⟨d, hd, rfl, rfl, rfl, List.prefix_refl _⟩

/-! ## Merges -/

/-- What holds after an edit that fails, and after another one behind it if it succeeds, holds after
both in a row. -/
lemma after_bind {α β : Type} {R : Configuration → Prop} {x : Edit α} {f : α → Edit β}
    (fails : ∀ e conf₁, x.apply conf = (.error e, conf₁) → R conf₁)
    (goes : ∀ r conf₁, x.apply conf = (.ok r, conf₁) → R ((f r).apply conf₁).2) :
    R ((x >>= f).apply conf).2 := by
  rw [apply_bind]
  split
  · exact goes _ _ ‹_›
  · exact fails _ _ ‹_›

/-- What comes out of a run is reached by steps. -/
lemma Makes.of_run {α : Type} {step : Configuration → Configuration → Prop} {edit : Edit α}
    (makes : Makes step edit) {out : Except ConfigError α} {conf' : Configuration}
    (run : edit.apply conf = (out, conf')) : Relation.ReflTransGen step conf conf' := by
  have steps := makes conf
  rw [run] at steps
  exact steps

/-- An edit that makes changes only leaves a frozen configuration as it is. -/
lemma Makes.frozen {α : Type} {edit : Edit α} (makes : Makes Change edit)
    (frozen : conf.readOnly = true) {out : Except ConfigError α} {conf' : Configuration}
    (run : edit.apply conf = (out, conf')) : conf' = conf :=
  eq_of_changes frozen (makes.of_run run)

section

variable (process : Host) (rules : Rules) (source : Configuration)

/-- Lays one child section of the source over those of `target`. -/
def mergeNext (target : NodeId) (t : Subtree) : Edit Unit := do
  match ← look fun conf => conf.matchOf process rules source target t.id t.name with
  | some id => mergeSection process rules source id t
  | none =>
    let _ ← copySubtree target t

end

variable {process : Host} {rules : Rules} {source : Configuration} {t : Subtree}
  {ts : List Subtree} {d : NodeData}

/-- Sections are merged one after the other. -/
lemma mergeSections_cons : mergeSections process rules source target (t :: ts) =
    (mergeNext process rules source target t >>= fun _ =>
      mergeSections process rules source target ts) := by
  rw [mergeSections, mergeNext, bind_assoc]
  congr 1
  funext paired
  cases paired with
  | some id => rfl
  | none => simp only [bind_assoc, pure_bind]

/-- A child section of the source cannot be paired, is merged into a child section of the target, or
is copied. -/
inductive Next (process : Host) (rules : Rules) (source : Configuration) (target : NodeId)
    (t : Subtree) (conf : Configuration) : Except ConfigError Unit → Configuration → Prop where
  | unpaired {e : ConfigError} :
    conf.matchOf process rules source target t.id t.name = .error e →
    Next process rules source target t conf (.error e) conf
  | merged {child : NodeId} {out : Except ConfigError Unit} {conf' : Configuration} :
    conf.matchOf process rules source target t.id t.name = .ok (some child) →
    child ∈ conf.childrenOf target →
    (mergeSection process rules source child t).apply conf = (out, conf') →
    Next process rules source target t conf out conf'
  | copied {conf' : Configuration} :
    conf.matchOf process rules source target t.id t.name = .ok none →
    Confined target conf conf' →
    Appended target conf conf' →
    conf'.shape target = (conf.shape target).extend [] [t.shape] →
    Next process rules source target t conf (.ok ()) conf'

/-- What became of one section is told by its run. -/
lemma of_mergeNext (named : t.Named) (wf : conf.WellFormed) (writable : conf.readOnly = false)
    (h : conf.live? target = some d) (sec : d.kind = .sectionKind) {out : Except ConfigError Unit}
    {conf' : Configuration}
    (run : (mergeNext process rules source target t).apply conf = (out, conf')) :
    Next process rules source target t conf out conf' := by
  rw [mergeNext, apply_bind, apply_look] at run
  cases found : conf.matchOf process rules source target t.id t.name with
  | error e =>
    rw [found] at run
    cases run
    exact .unpaired found
  | ok paired =>
    rw [found] at run
    cases paired with
    | some c => exact .merged found (mem_of_matchOf found) run
    | none =>
      obtain ⟨conf₁, copy, confined, shape⟩ := copySubtree_spec wf writable h sec named
      have appended := appended_copySubtree h t
      rw [copy] at appended
      have run := (apply_bind_ok copy).symm.trans run
      cases run
      exact .copied found confined appended shape

/-- What holds without a change, after a replacement where the policy asks for one, and after merges
of the parts of a section, holds after a merge of the section. -/
lemma after_mergeSection {R : Configuration → Prop} {id : NodeId} {name : String}
    {value : Option String} {attributes : List Attribute} {children : List Subtree} (self : R conf)
    (replaced : conf.policyOf process rules target = .ok .replace →
      R ((replaceBy target (.mk id name value attributes children)).apply conf).2)
    (own : R ((mergeValue target value >>= fun _ =>
      mergeAttributes target [] attributes).apply conf).2)
    (sections : R ((mergeSections process rules source target children).apply conf).2)
    (all : R ((mergeValue target value >>= fun _ =>
      mergeAttributes target [] attributes >>= fun _ =>
      mergeSections process rules source target children).apply conf).2) :
    R ((mergeSection process rules source target
      (.mk id name value attributes children)).apply conf).2 := by
  rw [mergeSection, apply_bind, apply_look]
  cases declared : conf.policyOf process rules target with
  | error e => exact self
  | ok policy =>
    cases policy with
    | stop => exact self
    | fail =>
      dsimp only
      rw [apply_look]
      exact self
    | replace => exact replaced declared
    | attributes => exact own
    | sections => exact sections
    | all => exact all

/-- What holds without a change, after a merge into a counterpart and after a copy, holds after a
merge of a child section. -/
lemma after_mergeNext {R : Configuration → Prop} (self : R conf)
    (merged : ∀ c, conf.matchOf process rules source target t.id t.name = .ok (some c) →
      R ((mergeSection process rules source c t).apply conf).2)
    (copied : R ((copySubtree target t).apply conf).2) :
    R ((mergeNext process rules source target t).apply conf).2 := by
  rw [mergeNext, apply_bind, apply_look]
  cases found : conf.matchOf process rules source target t.id t.name with
  | error e => exact self
  | ok paired =>
    cases paired with
    | some c => exact merged c found
    | none =>
      refine after_bind (fun _ _ run => ?_) fun _ _ run => ?_
      all_goals
        rw [run] at copied
        exact copied

variable (process rules source) in
mutual

/-- A merge is confined to its target, however it ends. -/
lemma confined_mergeSection : ∀ (t : Subtree) {conf : Configuration} {target : Nat} {d : NodeData},
    t.Named → conf.WellFormed → conf.readOnly = false → conf.live? target = some d →
    d.kind = .sectionKind →
    Confined target conf ((mergeSection process rules source target t).apply conf).2
  | .mk id name value attributes children, conf, target, d, named, wf, writable, h, sec => by
    obtain ⟨conf₁, conf₂, run₁, run₂, confined, -, -⟩ :=
      mergeOwn_spec (.mk id name value attributes children) wf writable h sec named.2.1
    rw [Subtree.value] at run₁
    rw [Subtree.attributes] at run₂
    refine after_mergeSection (.refl wf) (fun _ => ?_) ?_
      (confined_mergeSections children named.2.2 wf writable h sec) ?_
    · obtain ⟨conf₃, run₃, confined, -⟩ := replaceBy_spec wf writable h sec named
      rw [run₃]
      exact confined
    · rw [(apply_bind_ok run₁).trans run₂]
      exact confined
    · rw [(apply_bind_ok run₁).trans (apply_bind_ok run₂)]
      obtain ⟨d₂, h₂, kind, -⟩ := confined.kept d h
      exact confined.trans wf (confined_mergeSections children named.2.2 confined.wellFormed
        (confined.readOnly.trans writable) h₂ (kind.trans sec))

/-- A merge of sections changes nothing outside of the target. -/
lemma confined_mergeSections : ∀ (ts : List Subtree) {conf : Configuration} {target : Nat}
    {d : NodeData}, Subtree.AllNamed ts → conf.WellFormed → conf.readOnly = false →
    conf.live? target = some d → d.kind = .sectionKind →
    Confined target conf ((mergeSections process rules source target ts).apply conf).2
  | [], conf, target, d, _, wf, _, _, _ => .refl wf
  | t :: ts, conf, target, d, named, wf, writable, h, sec => by
    have first : Confined target conf ((mergeNext process rules source target t).apply conf).2 := by
      refine after_mergeNext (.refl wf) (fun c found => ?_) ?_
      · obtain ⟨hc, e, live, kind⟩ := live_of_matchOf wf h found
        exact (confined_mergeSection t named.1 wf writable live kind).above wf
          (.of_mem_entries wf h hc)
      · obtain ⟨conf₁, copy, confined, -⟩ := copySubtree_spec wf writable h sec named.1
        rw [copy]
        exact confined
    rw [mergeSections_cons]
    refine after_bind (fun _ _ run => ?_) fun _ conf₁ run => ?_
    all_goals rw [run] at first
    · exact first
    · obtain ⟨d₁, h₁, kind, -⟩ := first.kept d h
      exact first.trans wf (confined_mergeSections ts named.2 first.wellFormed
        (first.readOnly.trans writable) h₁ (kind.trans sec))

end

/-- A merge of one child section is confined to the target, however it ends. -/
lemma confined_mergeNext (named : t.Named) (wf : conf.WellFormed) (writable : conf.readOnly = false)
    (h : conf.live? target = some d) (sec : d.kind = .sectionKind) {out : Except ConfigError Unit}
    {conf' : Configuration}
    (run : (mergeNext process rules source target t).apply conf = (out, conf')) :
    Confined target conf conf' := by
  have whole := confined_mergeSections process rules source [t] ⟨named, trivial⟩ wf writable h sec
  rw [mergeSections_cons, mergeSections, bind_pure_unit, run] at whole
  exact whole

/-- A merge of child sections leaves the value and the attributes of the target, however it ends. -/
lemma keepsOwn_mergeSections (named : Subtree.AllNamed ts) (wf : conf.WellFormed)
    (writable : conf.readOnly = false) (h : conf.live? target = some d)
    (sec : d.kind = .sectionKind) :
    KeepsOwn target conf ((mergeSections process rules source target ts).apply conf).2 := by
  induction ts generalizing conf d with
  | nil => exact .refl
  | cons t ts ih =>
    have first : KeepsOwn target conf ((mergeNext process rules source target t).apply conf).2 := by
      refine after_mergeNext .refl (fun c found => ?_) ((appended_copySubtree h t).keepsOwn wf h)
      obtain ⟨hc, e, live, kind⟩ := live_of_matchOf wf h found
      exact .of_child wf
        (confined_mergeSection process rules source t named.1 wf writable live kind) h hc
    rw [mergeSections_cons]
    refine after_bind (fun _ _ run => ?_) fun _ conf₁ run => ?_
    all_goals rw [run] at first
    · exact first
    · have confined := confined_mergeNext named.1 wf writable h sec run
      obtain ⟨d₁, h₁, kind, -⟩ := confined.kept d h
      exact first.trans (ih named.2 confined.wellFormed (confined.readOnly.trans writable) h₁
        (kind.trans sec))

end Edit

end ConfTree
