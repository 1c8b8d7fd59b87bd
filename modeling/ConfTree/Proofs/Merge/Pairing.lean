import ConfTree.Merge.Overlay
import ConfTree.Proofs.Evaluation.Plain
import ConfTree.Proofs.Merge.Layers
import ConfTree.Proofs.Tree.Copy
import Mathlib.Data.List.Find

/-!
# What a merge looks at

A merge looks at the policy of a section before it changes it, and at the keys of its child sections
to pair them with those of the source. As long as these are texts without references, it sees no
more than the shapes tell: the policy is that of the shape (`policyOf_literal`), and a section of
the source is paired with the first child section that `pairs` with it (`matchOf_literal`).
-/

namespace ConfTree

open ConfTree.Configuration ConfTree.Text

namespace Shape

/-- The policy that the section declares, if it is a policy. -/
def policy? (rules : Rules) (s : Shape) : Option Policy :=
  match s.key? rules.policyName with
  | none => some .all
  | some text => Policy.ofText? text

/-- The second section, of a source, can be paired with the first one: they have the same name, and
the same key if the second one has a match attribute. -/
def pairs (keyName : String) (s t : Shape) : Bool :=
  sameName s.name t.name &&
    (!t.carries keyName || s.key? keyName == some ((t.key? keyName).getD ""))

/-- A section without a policy attribute is merged as a whole. -/
lemma policy?_of_undeclared {rules : Rules} {s : Shape}
    (h : ∀ a ∈ s.attributes, sameName a.1 rules.policyName = false) :
    s.policy? rules = some .all := by
  have none : s.attributes.find? (fun a => sameName a.1 rules.policyName) = none :=
    List.find?_eq_none.2 fun a ha => by simp [h a ha]
  rw [policy?, key?, none]
  rfl

end Shape

/-- If the attribute is one that a merge looks at, its value has no references. -/
def LiteralAttribute (rules : Rules) (a : String × Option String) : Prop :=
  sameName a.1 rules.policyName = true ∨ sameName a.1 rules.keyName = true →
    ∀ v ∈ a.2, hasReference v.toList = false

instance (rules : Rules) : DecidablePred (LiteralAttribute rules) := by
  unfold LiteralAttribute
  infer_instance

/-- A plain attribute has no reference where a merge looks at it. -/
lemma PlainAttribute.literal {rules : Rules} {a : String × Option String}
    (h : PlainAttribute rules a) : LiteralAttribute rules a := by
  rintro (policy | key) v hv
  · rw [h.1] at policy
    cases policy
  · obtain ⟨w, hw, plain⟩ := h.2 key
    rw [hw] at hv
    cases hv
    exact plain

/-- Whether the values of attributes of a name may have references does not depend on its case. -/
lemma LiteralAttribute.respects {rules : Rules} {m n : String} {v : Option String}
    (same : sameName m n = true) (h : LiteralAttribute rules (n, v)) :
    LiteralAttribute rules (m, v) := by
  have alike : ∀ {name : String}, sameName m name = true → sameName n name = true :=
    fun hn => sameName_trans (sameName_symm same) hn
  exact fun looked => h (looked.imp alike alike)

/-- No section has a policy attribute. -/
def Undeclared (rules : Rules) (s : Shape) : Prop :=
  s.AllAttributes fun a => sameName a.1 rules.policyName = false

instance (rules : Rules) (s : Shape) : Decidable (Undeclared rules s) := by
  unfold Undeclared
  infer_instance

namespace Configuration

section

variable {conf : Configuration} {id : Nat} {d : NodeData} {rules : Rules}

/-- A node has the name of its looks. -/
lemma isNamed_eq (h : conf.live? id = some d) (name : String) :
    conf.isNamed id name = sameName (conf.pairOf id).1 (trim name) := by
  simp [isNamed, hasName, h, pairOf_eq h]

/-- The first attribute of a name is found by its looks. -/
lemma attribute?_map (wf : conf.WellFormed) (h : conf.live? id = some d) (name : String) :
    (conf.attribute? id name).map conf.pairOf =
      (conf.shape id).attributes.find? fun a => sameName a.1 (trim name) := by
  rw [shape_eq wf h, Shape.attributes, List.find?_map, attribute?, attributesOf_eq h]
  congr 1
  refine List.find?_congr fun x hx => ?_
  obtain ⟨e, live, -⟩ := wf.listed id d _ x h hx
  exact isNamed_eq live name

/-- The first attribute of a name is evaluated to its text, if that has no references. -/
lemma valueOf_literal (process : Host) (wf : conf.WellFormed) (h : conf.live? id = some d)
    {name : String} (literal : ∀ a ∈ (conf.shape id).attributes, sameName a.1 (trim name) = true →
      ∀ v ∈ a.2, hasReference v.toList = false) :
    conf.valueOf? process (conf.attribute? id name) = .ok ((conf.shape id).key? (trim name)) := by
  have found := attribute?_map wf h name
  rw [Shape.key?, ← found]
  cases ha : conf.attribute? id name with
  | none => rfl
  | some x =>
    rw [ha, Option.map_some] at found
    have named := List.find?_some found.symm
    exact value?_literal (literal _ (List.mem_of_find?_eq_some found.symm) named) process

/-- A section has the policy of a shape if the policy attributes have the same value. -/
lemma policyOf_of_key {process : Host} {s : Shape}
    (h : conf.valueOf? process (conf.attribute? id rules.policyAttribute) =
      .ok (s.key? rules.policyName)) {policy : Policy} :
    conf.policyOf process rules id = .ok policy ↔ s.policy? rules = some policy := by
  rw [policyOf, h, ok_bind, Shape.policy?]
  cases s.key? rules.policyName with
  | none => simp [pure, Except.pure]
  | some text =>
    cases hp : Policy.ofText? text with
    | none => simp [hp, throw, throwThe, MonadExceptOf.throw]
    | some policy' => simp [hp, pure, Except.pure]

/-- The policy of a section is that of its shape. -/
lemma policyOf_literal (process : Host) (wf : conf.WellFormed) (h : conf.live? id = some d)
    (literal : ∀ a ∈ (conf.shape id).attributes, LiteralAttribute rules a) {policy : Policy} :
    conf.policyOf process rules id = .ok policy ↔ (conf.shape id).policy? rules = some policy :=
  policyOf_of_key (valueOf_literal process wf h fun a ha named => literal a ha (.inl named))

/-- The first section with a key is found by its shape. -/
lemma firstWithKey_literal (process : Host) (wf : conf.WellFormed) (wanted : String)
    {ids : List NodeId}
    (literal : ∀ c ∈ ids, (∃ d, conf.live? c = some d) ∧
      ∀ a ∈ (conf.shape c).attributes, LiteralAttribute rules a) :
    conf.firstWithKey process rules wanted ids =
      .ok (ids.find? fun c => (conf.shape c).key? rules.keyName == some wanted) := by
  induction ids with
  | nil => rfl
  | cons c ids ih =>
    obtain ⟨⟨d, live⟩, hc⟩ := literal c List.mem_cons_self
    have rest := ih fun x hx => literal x (List.mem_cons_of_mem _ hx)
    have key : conf.valueOf? process (conf.attribute? c rules.matchAttribute) =
        .ok ((conf.shape c).key? rules.keyName) :=
      valueOf_literal process wf live fun a ha named => hc a ha (.inr named)
    rw [firstWithKey, key, ok_bind]
    by_cases equal : (conf.shape c).key? rules.keyName = some wanted
    · rw [if_pos equal, List.find?_cons_of_pos (by simp [equal])]
      rfl
    · rw [if_neg equal, List.find?_cons_of_neg (by simpa using equal), rest]

end

variable {conf source : Configuration} {target id : Nat} {d e : NodeData} {rules : Rules}

/-- A section of the source is paired with the first child section that pairs with it. -/
lemma matchOf_literal (process : Host) (wf : conf.WellFormed) (wfs : source.WellFormed)
    (appends : rules.appends = false) (h : conf.live? target = some d)
    (hs : source.live? id = some e)
    (literal : ∀ c ∈ (conf.shape target).children, ∀ a ∈ c.attributes, LiteralAttribute rules a)
    (literal' : ∀ a ∈ (source.shape id).attributes, LiteralAttribute rules a) :
    conf.matchOf process rules source target id e.name =
      .ok ((d.entries .sectionKind).find? fun c =>
        (conf.shape c).pairs rules.keyName (source.shape id)) := by
  have named : ∀ c ∈ d.entries .sectionKind, conf.isNamed c e.name =
      sameName (conf.shape c).name (source.shape id).name := by
    intro c hc
    obtain ⟨cd, live, -⟩ := wf.listed target d _ c h hc
    rw [isNamed_eq live, pairOf_eq live, name_shape wf live, name_shape wfs hs,
      (wfs.named id e hs).2]
  have found := attribute?_map wfs hs rules.matchAttribute
  have carries := carries_eq rules.keyName (source.shape id)
  rw [show rules.keyName = trim rules.matchAttribute from rfl, ← found] at carries
  rw [matchOf, childrenOf_eq h]
  cases ha : source.attribute? id rules.matchAttribute with
  | none =>
    have unkeyed : (source.shape id).carries rules.keyName = false := by
      rw [ha] at carries
      exact carries
    simp only [appends, Bool.false_eq_true, if_false, List.head?_filter]
    refine congrArg _ (List.find?_congr fun c hc => ?_)
    rw [named c hc, Shape.pairs, unkeyed, Bool.not_false, Bool.true_or, Bool.and_true]
  | some key =>
    have keyed : (source.shape id).carries rules.keyName = true := by
      rw [ha] at carries
      exact carries
    have wanted : source.valueOf? process (source.attribute? id rules.matchAttribute) =
        .ok ((source.shape id).key? rules.keyName) :=
      valueOf_literal process wfs hs fun a ha named => literal' a ha (.inr named)
    rw [ha] at wanted
    change source.value? process key = _ at wanted
    simp only [wanted, ok_bind]
    rw [firstWithKey_literal process wf]
    · rw [List.find?_filter]
      refine congrArg _ (List.find?_congr fun c hc => ?_)
      rw [named c hc, Shape.pairs, keyed, Bool.not_true, Bool.false_or, Bool.decide_and,
        Bool.decide_eq_true, Bool.decide_eq_true]
    · intro c hc
      have hc := List.mem_of_mem_filter hc
      obtain ⟨cd, live, -⟩ := wf.listed target d _ c h hc
      refine ⟨⟨cd, live⟩, literal _ ?_⟩
      rw [shape_eq wf h]
      exact List.mem_map_of_mem hc

/-- A section that is paired is a child section of the target. -/
lemma mem_of_matchOf {process : Host} {x : Nat} {name : String}
    (h : conf.matchOf process rules source target id name = .ok (some x)) :
    x ∈ conf.childrenOf target := by
  have first : ∀ {wanted : String} {ids : List NodeId},
      conf.firstWithKey process rules wanted ids = .ok (some x) → x ∈ ids := by
    intro wanted ids h
    induction ids with
    | nil => cases h
    | cons c ids ih =>
      rw [firstWithKey] at h
      obtain ⟨key, -, h⟩ := bind_eq_ok h
      split at h
      · cases h
        exact List.mem_cons_self
      · exact List.mem_cons_of_mem _ (ih h)
  unfold matchOf at h
  split at h
  · dsimp only at h
    split at h
    · cases h
    · exact List.mem_of_mem_filter (List.mem_of_mem_head? (Except.ok.inj h))
  · obtain ⟨wanted, -, h⟩ := bind_eq_ok h
    exact List.mem_of_mem_filter (first h)

/-- A section that is paired is live. -/
lemma live_of_matchOf (wf : conf.WellFormed) {d : NodeData} (h : conf.live? target = some d)
    {process : Host} {x : Nat} {name : String}
    (found : conf.matchOf process rules source target id name = .ok (some x)) :
    x ∈ d.entries .sectionKind ∧ ∃ e, conf.live? x = some e ∧ e.kind = .sectionKind := by
  have hx := mem_of_matchOf found
  rw [childrenOf_eq h] at hx
  obtain ⟨e, live, kind, -⟩ := wf.listed target d _ x h hx
  exact ⟨hx, e, live, kind⟩

end Configuration

/-! ## Sections of the source -/

section

variable (process : Host) {conf source : Configuration} {target : Nat} {d : NodeData}
  {rules : Rules} {t : Subtree} (wf : conf.WellFormed) (wfs : source.WellFormed)
  (appends : rules.appends = false) (h : conf.live? target = some d) (taken : TakenFrom source t)
  (literal : ∀ c ∈ (conf.shape target).children, ∀ a ∈ c.attributes, LiteralAttribute rules a)
  (literal' : ∀ a ∈ t.shape.attributes, LiteralAttribute rules a)

include wf wfs appends h taken literal literal'

/-- A section that is taken from the source is paired by its shape. -/
lemma TakenFrom.matchOf : conf.matchOf process rules source target t.id t.name =
    .ok ((d.entries .sectionKind).find? fun c => (conf.shape c).pairs rules.keyName t.shape) := by
  obtain ⟨whole, e, live, -⟩ := taken
  have shape : source.shape t.id = t.shape := by rw [Configuration.shape, ← whole]
  have name : e.name = t.name := by
    rw [whole, subtree_eq wfs live]
    rfl
  rw [← shape] at literal'
  rw [← name, matchOf_literal process wf wfs appends h live literal literal', shape]

/-- The first child section that pairs is looked up. -/
lemma Edit.look_matchOf :
    (look fun conf => conf.matchOf process rules source target t.id t.name).apply conf =
      (.ok ((d.entries .sectionKind).find? fun c => (conf.shape c).pairs rules.keyName t.shape),
        conf) := by
  rw [apply_look, taken.matchOf process wf wfs appends h literal literal']

end

end ConfTree
