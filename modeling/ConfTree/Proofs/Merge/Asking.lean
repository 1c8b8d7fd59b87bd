import ConfTree.Proofs.Evaluation.Plain
import ConfTree.Proofs.Merge.Calls
import ConfTree.Proofs.Merge.Growth

/-!
# What a merge asks for

A merge evaluates policies and keys while it goes, and each value can decide what it comes to next.
`Edit.Asks` lists the attributes whose values it asks for, with the configurations that it asks. If
these values are the same for two states of the process, then the merge goes the same way
(`overrideBy_congr`). A merge brings no attribute but from its two sides, so it asks for no value
with references if neither side has one in an attribute that it looks at (`Edit.Asks.literal`).
-/

namespace ConfTree

open ConfTree.Configuration ConfTree.Text

variable {p q process : Host} {rules : Rules} {source conf : Configuration}
  {target : NodeId} {t : Subtree} {ts : List Subtree}

/-! ## What a merge asks for -/

namespace Edit

mutual

/-- The merge of a section into a target asks for the value that the attribute has in `mid`. -/
inductive Asks (process : Host) (rules : Rules) (source : Configuration) :
    Configuration → NodeId → Subtree → Configuration → NodeId → Prop where
  | policy {conf : Configuration} {target asked : NodeId} {t : Subtree} :
    conf.attribute? target rules.policyAttribute = some asked →
    Asks process rules source conf target t conf asked
  | sections {conf mid : Configuration} {target asked id : NodeId} {name : String}
      {value : Option String} {attributes : List Attribute} {children : List Subtree} :
    conf.policyOf process rules target = .ok .sections →
    AsksAmong process rules source conf target children mid asked →
    Asks process rules source conf target (.mk id name value attributes children) mid asked
  | all {conf conf₁ conf₂ mid : Configuration} {target asked id : NodeId} {name : String}
      {value : Option String} {attributes : List Attribute} {children : List Subtree} :
    conf.policyOf process rules target = .ok .all →
    (mergeValue target value).apply conf = (.ok (), conf₁) →
    (mergeAttributes target [] attributes).apply conf₁ = (.ok (), conf₂) →
    AsksAmong process rules source conf₂ target children mid asked →
    Asks process rules source conf target (.mk id name value attributes children) mid asked

/-- The same of a merge of child sections. -/
inductive AsksAmong (process : Host) (rules : Rules) (source : Configuration) :
    Configuration → NodeId → List Subtree → Configuration → NodeId → Prop where
  /-- The key of a section of the source. -/
  | wanted {conf : Configuration} {target key : NodeId} {t : Subtree} {ts : List Subtree} :
    source.attribute? t.id rules.matchAttribute = some key →
    AsksAmong process rules source conf target (t :: ts) source key
  /-- The key of a section of the target, as long as no section before it has the wanted one. -/
  | candidate {conf : Configuration} {target key c actual : NodeId} {wanted : Option String}
      {t : Subtree} {ts : List Subtree} {before after : List NodeId} :
    source.attribute? t.id rules.matchAttribute = some key →
    source.value? process key = .ok wanted →
    (conf.childrenOf target).filter (conf.isNamed · t.name) = before ++ c :: after →
    conf.firstWithKey process rules (wanted.getD "") before = .ok none →
    conf.attribute? c rules.matchAttribute = some actual →
    AsksAmong process rules source conf target (t :: ts) conf actual
  | first {conf mid : Configuration} {target child asked : NodeId} {t : Subtree}
      {ts : List Subtree} :
    conf.matchOf process rules source target t.id t.name = .ok (some child) →
    Asks process rules source conf child t mid asked →
    AsksAmong process rules source conf target (t :: ts) mid asked
  | next {conf conf₁ mid : Configuration} {target asked : NodeId} {t : Subtree}
      {ts : List Subtree} :
    (mergeNext process rules source target t).apply conf = (.ok (), conf₁) →
    AsksAmong process rules source conf₁ target ts mid asked →
    AsksAmong process rules source conf target (t :: ts) mid asked

end

end Edit

/-- What comes behind an outcome matters if this is a result only. -/
lemma bind_congr_ok {ε α β : Type} {x : Except ε α} {f g : α → Except ε β}
    (h : ∀ a, x = .ok a → f a = g a) : (x >>= f) = x >>= g := by
  cases x with
  | error e => rfl
  | ok a => exact h a rfl

namespace Configuration

/-- The policy of a section is the same if its attribute has the same value. -/
lemma policyOf_congr (same : ∀ asked, conf.attribute? target rules.policyAttribute =
    some asked → conf.value? q asked = conf.value? p asked) :
    conf.policyOf q rules target = conf.policyOf p rules target := by
  have value : conf.valueOf? q (conf.attribute? target rules.policyAttribute) =
      conf.valueOf? p (conf.attribute? target rules.policyAttribute) := by
    cases found : conf.attribute? target rules.policyAttribute with
    | none => rfl
    | some asked => exact same asked found
  rw [policyOf, policyOf, value]

/-- The first section with a key is the same if the keys of the sections up to it are. -/
lemma firstWithKey_congr {wanted : String} {ids : List NodeId}
    (same : ∀ before c after actual, ids = before ++ c :: after →
      conf.firstWithKey p rules wanted before = .ok none →
      conf.attribute? c rules.matchAttribute = some actual →
      conf.value? q actual = conf.value? p actual) :
    conf.firstWithKey q rules wanted ids = conf.firstWithKey p rules wanted ids := by
  induction ids with
  | nil => rfl
  | cons c ids ih =>
    have key : conf.valueOf? q (conf.attribute? c rules.matchAttribute) =
        conf.valueOf? p (conf.attribute? c rules.matchAttribute) := by
      cases found : conf.attribute? c rules.matchAttribute with
      | none => rfl
      | some actual => exact same [] c ids actual rfl rfl found
    rw [firstWithKey, firstWithKey, key]
    refine bind_congr_ok fun actual value => ?_
    split
    · rfl
    · rename_i other
      refine ih fun before x after found split passed named => ?_
      refine same (c :: before) x after found (by rw [split]; rfl) ?_ named
      rw [firstWithKey, value, ok_bind, if_neg other]
      exact passed

end Configuration

namespace Edit

/-- A section of the source has the same counterpart if the values that are asked for are the
same. -/
lemma matchOf_congr (same : ∀ mid asked,
    AsksAmong p rules source conf target (t :: ts) mid asked →
      mid.value? q asked = mid.value? p asked) :
    conf.matchOf q rules source target t.id t.name =
      conf.matchOf p rules source target t.id t.name := by
  rw [matchOf, matchOf]
  cases found : source.attribute? t.id rules.matchAttribute with
  | none => rfl
  | some key =>
    dsimp only
    rw [same source key (.wanted found)]
    refine bind_congr_ok fun wanted value => ?_
    refine firstWithKey_congr fun before c after actual split passed named => ?_
    exact same conf actual (.candidate found value split passed named)

/-- Edits go the same way behind the same one. -/
lemma apply_bind_congr {α β : Type} {x y : Edit α} {f g : α → Edit β} {before : Configuration}
    (first : y.apply before = x.apply before)
    (rest : ∀ a after, x.apply before = (.ok a, after) → (g a).apply after = (f a).apply after) :
    (y >>= g).apply before = (x >>= f).apply before := by
  rw [apply_bind, apply_bind, first]
  split
  · exact rest _ _ ‹_›
  · rfl

mutual

/-- A merge goes the same way if the values that it asks for are the same. -/
lemma mergeSection_congr : ∀ (t : Subtree) {conf : Configuration} {target : NodeId},
    (∀ mid asked, Asks p rules source conf target t mid asked →
      mid.value? q asked = mid.value? p asked) →
    (mergeSection q rules source target t).apply conf =
      (mergeSection p rules source target t).apply conf
  | .mk id name value attributes children, conf, target, same => by
    have policy : conf.policyOf q rules target = conf.policyOf p rules target :=
      policyOf_congr fun asked found => same conf asked (.policy found)
    rw [mergeSection, mergeSection, apply_bind, apply_bind, apply_look, apply_look, policy]
    cases declared : conf.policyOf p rules target with
    | error e => rfl
    | ok policy =>
      cases policy with
      | sections =>
        exact mergeSections_congr children fun mid asked asks =>
          same mid asked (.sections declared asks)
      | all =>
        refine apply_bind_congr rfl fun _ conf₁ run₁ => apply_bind_congr rfl fun _ conf₂ run₂ => ?_
        exact mergeSections_congr children fun mid asked asks =>
          same mid asked (.all declared run₁ run₂ asks)
      | _ => rfl

/-- Where all attributes that a merge of sections asks for have the same values, it does the
same. -/
lemma mergeSections_congr : ∀ (ts : List Subtree) {conf : Configuration} {target : NodeId},
    (∀ mid asked, AsksAmong p rules source conf target ts mid asked →
      mid.value? q asked = mid.value? p asked) →
    (mergeSections q rules source target ts).apply conf =
      (mergeSections p rules source target ts).apply conf
  | [], conf, target, _ => by rw [mergeSections, mergeSections]
  | t :: ts, conf, target, same => by
    have first : (mergeNext q rules source target t).apply conf =
        (mergeNext p rules source target t).apply conf := by
      rw [mergeNext, mergeNext, apply_bind, apply_bind, apply_look, apply_look, matchOf_congr same]
      cases found : conf.matchOf p rules source target t.id t.name with
      | error e => rfl
      | ok paired =>
        cases paired with
        | none => rfl
        | some child =>
          exact mergeSection_congr t fun mid asked asks => same mid asked (.first found asks)
    rw [mergeSections_cons, mergeSections_cons]
    refine apply_bind_congr first fun _ conf₁ run => ?_
    exact mergeSections_congr ts fun mid asked asks => same mid asked (.next run asks)

end

end Edit

/-! ## Attributes that a merge leaves or brings -/

section

variable {P : String × Option String → Prop} {td : NodeData}

namespace Configuration

/-- No attribute is new where a section is emptied. -/
lemma AllAttributes.emptyNode (wf : conf.WellFormed) (all : conf.AllAttributes P)
    (h : conf.live? target = some td) (sec : td.kind = .sectionKind) :
    (conf.emptyNode target).AllAttributes P := by
  intro x d hx attr
  by_cases gone : conf.Below target x ∧ x ≠ target
  · rw [(wf.live?_emptyNode h x).1 gone] at hx
    cases hx
  · rw [(wf.live?_emptyNode h x).2 gone] at hx
    obtain ⟨e, he, rfl⟩ := Option.map_eq_some_iff.1 hx
    split at attr
    · rename_i same
      subst same
      rw [h] at he
      cases he
      exact absurd ((NodeData.kind_cleared true).symm.trans attr) (by rw [sec]; decide)
    · rename_i other
      rw [if_neg other]
      exact all x e he attr

end Configuration

namespace Edit

/-- A replaced section has the attributes of the source, however that ends. -/
lemma allAttributes_replaceBy (named : t.Named) (meet : t.shape.AllAttributes P)
    (wf : conf.WellFormed) (writable : conf.readOnly = false) (all : conf.AllAttributes P)
    (h : conf.live? target = some td) (sec : td.kind = .sectionKind) :
    ((replaceBy target t).apply conf).2.AllAttributes P := by
  obtain ⟨id, name, value, attributes, children⟩ := t
  obtain ⟨-, good, goodChildren⟩ := named
  obtain ⟨own, rest⟩ := Shape.allAttributes_iff.1 meet
  have emptied := live?_emptyNode_self wf h
  have copied : Keeps (Extends P (conf.emptyNode target)) (copyContent target
      (.mk id name value attributes children)) fun _ => True :=
    .bind (extends_copyAttributes good own target) fun _ _ =>
      extends_copySubtrees target goodChildren rest
  rw [replaceBy, apply_bind_ok (apply_clear writable h sec)]
  have set : Extends P (conf.emptyNode target)
      ((setValue target (Subtree.mk id name value attributes children).value).apply
        (conf.emptyNode target)).2 :=
    extends_setValue (wf.emptyNode h) (all.emptyNode wf h sec) emptied fun attr =>
      absurd ((NodeData.kind_cleared true).symm.trans attr) (by rw [sec]; decide)
  exact (after_both set fun _ conf₁ first => (copied conf₁ first).1).allAttributes

end Edit

end

/-! ## Merges without references -/

namespace Edit

/-- The target can be edited, and no attribute that a merge looks at has a value with references. -/
structure Ready (rules : Rules) (conf : Configuration) (target : Nat) : Prop where
  wellFormed : conf.WellFormed
  writable : conf.readOnly = false
  live : ∃ d, conf.live? target = some d ∧ d.kind = .sectionKind
  literal : conf.AllAttributes (LiteralAttribute rules)

namespace Ready

variable {conf' : Configuration}

/-- What is done below the target leaves it ready. -/
lemma of_confined (ready : Ready rules conf target) (confined : Confined target conf conf')
    (literal : conf'.AllAttributes (LiteralAttribute rules)) : Ready rules conf' target := by
  obtain ⟨d, h, sec⟩ := ready.live
  obtain ⟨e, h', kind, -⟩ := confined.kept d h
  exact ⟨confined.wellFormed, confined.readOnly.trans ready.writable, ⟨e, h', kind.trans sec⟩,
    literal⟩

/-- A section that is paired is ready if its parent is. -/
lemma paired {c : Nat} (ready : Ready rules conf target)
    (found : conf.matchOf process rules source target t.id t.name = .ok (some c)) :
    Ready rules conf c := by
  obtain ⟨d, h, -⟩ := ready.live
  obtain ⟨-, live⟩ := live_of_matchOf ready.wellFormed h found
  exact ⟨ready.wellFormed, ready.writable, live, ready.literal⟩

/-- The value and the attributes of a section are merged, and the target is ready for more. -/
lemma own (ready : Ready rules conf target) (named : t.Named) (literal : Literal rules t.shape) :
    ∃ conf₁ conf₂, (mergeValue target t.value).apply conf = (.ok (), conf₁) ∧
      (mergeAttributes target [] t.attributes).apply conf₁ = (.ok (), conf₂) ∧
      Ready rules conf₂ target := by
  obtain ⟨d, h, sec⟩ := ready.live
  obtain ⟨id, name, value, attributes, children⟩ := t
  obtain ⟨conf₁, conf₂, run₁, run₂, confined, -⟩ :=
    mergeOwn_spec (.mk id name value attributes children) ready.wellFormed ready.writable h sec
      named.2.1
  have merged := extends_mergeOwn LiteralAttribute.respects named.2.1
    (Shape.allAttributes_iff.1 literal).1 ready.wellFormed ready.literal h sec value
  rw [Subtree.value] at run₁
  rw [Subtree.attributes] at run₂
  rw [apply_bind_ok run₁, run₂] at merged
  exact ⟨conf₁, conf₂, run₁, run₂, ready.of_confined confined merged.allAttributes⟩

end Ready

variable (process rules source) in
mutual

/-- However a merge ends, it brings no references to where a merge looks. -/
lemma ready_mergeSection : ∀ (t : Subtree) {conf : Configuration} {target : Nat}, t.Named →
    Literal rules t.shape → Ready rules conf target →
    Ready rules ((mergeSection process rules source target t).apply conf).2 target
  | .mk id name value attributes children, conf, target, named, literal, ready => by
    obtain ⟨d, h, sec⟩ := ready.live
    refine ready.of_confined (confined_mergeSection process rules source _ named ready.wellFormed
      ready.writable h sec) ?_
    have rest := (Shape.allAttributes_iff.1 literal).2
    obtain ⟨conf₁, conf₂, run₁, run₂, ready₂⟩ := ready.own named literal
    rw [Subtree.value] at run₁
    rw [Subtree.attributes] at run₂
    refine after_mergeSection ready.literal (fun _ => ?_) ?_ ?_ ?_
    · exact allAttributes_replaceBy named literal ready.wellFormed ready.writable ready.literal h
        sec
    · rw [apply_bind_ok run₁, run₂]
      exact ready₂.literal
    · exact (ready_mergeSections children named.2.2 rest ready).literal
    · rw [apply_bind_ok run₁, apply_bind_ok run₂]
      exact (ready_mergeSections children named.2.2 rest ready₂).literal

/-- A merge of sections leaves the target ready. -/
lemma ready_mergeSections : ∀ (ts : List Subtree) {conf : Configuration} {target : Nat},
    Subtree.AllNamed ts → (∀ s ∈ Subtree.shapes ts, Literal rules s) → Ready rules conf target →
    Ready rules ((mergeSections process rules source target ts).apply conf).2 target
  | [], conf, target, _, _, ready => ready
  | t :: ts, conf, target, named, literal, ready => by
    obtain ⟨first, rest⟩ := List.forall_mem_cons.1 literal
    obtain ⟨d, h, sec⟩ := ready.live
    have all : ((mergeNext process rules source target t).apply conf).2.AllAttributes
        (LiteralAttribute rules) := by
      refine after_mergeNext ready.literal (fun c found => ?_) ?_
      · exact (ready_mergeSection t named.1 first (ready.paired found)).literal
      · exact (extends_copySubtree target named.1 first conf
          (.refl ready.wellFormed ready.literal)).1.allAttributes
    have next : Ready rules ((mergeNext process rules source target t).apply conf).2 target :=
      ready.of_confined (confined_mergeNext named.1 ready.wellFormed ready.writable h sec rfl) all
    rw [mergeSections_cons]
    refine after_bind (R := fun c => Ready rules c target) (fun _ _ run => ?_) fun _ conf₁ run => ?_
    all_goals rw [run] at next
    · exact next
    · exact ready_mergeSections ts named.2 rest next

end

variable (process source) in
/-- A merge of one child section leaves the target ready for the next one. -/
lemma ready_mergeNext (named : t.Named) (literal : Literal rules t.shape)
    (ready : Ready rules conf target) :
    Ready rules ((mergeNext process rules source target t).apply conf).2 target := by
  have whole := ready_mergeSections process rules source [t] ⟨named, trivial⟩
    (by simpa [Subtree.shapes]) ready
  rw [mergeSections_cons, mergeSections, bind_pure_unit] at whole
  exact whole

/-- The first attribute of a name that a merge looks at has a value without references. -/
lemma literal_attribute? {id x : Nat} {name : String} (wf : conf.WellFormed)
    (literal : conf.AllAttributes (LiteralAttribute rules))
    (looked : name = rules.policyAttribute ∨ name = rules.matchAttribute)
    (found : conf.attribute? id name = some x) :
    ∀ v ∈ conf.verbatim? x, hasReference v.toList = false := by
  obtain ⟨e, live, kind, -, named⟩ := live_attribute? wf found
  rw [Configuration.verbatim?_eq live]
  refine literal x e live kind (looked.imp ?_ ?_)
  · rintro rfl
    exact named
  · rintro rfl
    exact named

variable {mid : Configuration} {asked : Nat}

mutual

/-- A merge of sides without references where it looks asks for no value with references. -/
lemma Asks.literal (wfs : source.WellFormed)
    (literal' : source.AllAttributes (LiteralAttribute rules)) :
    ∀ {t : Subtree} {conf : Configuration} {target : Nat},
      Asks process rules source conf target t mid asked → t.Named → Literal rules t.shape →
      Ready rules conf target → ∀ v ∈ mid.verbatim? asked, hasReference v.toList = false
  | .mk id name value attributes children, conf, target, asks, named, literal, ready => by
    have rest := (Shape.allAttributes_iff.1 literal).2
    cases asks with
    | policy found => exact literal_attribute? ready.wellFormed ready.literal (.inl rfl) found
    | sections _ among => exact among.literal wfs literal' named.2.2 rest ready
    | all _ run₁ run₂ among =>
      obtain ⟨conf₁', conf₂', run₁', run₂', ready₂⟩ := ready.own named literal
      rw [Subtree.value, run₁] at run₁'
      cases run₁'
      rw [Subtree.attributes, run₂] at run₂'
      cases run₂'
      exact among.literal wfs literal' named.2.2 rest ready₂

/-- No attribute that a merge of sections asks for holds references. -/
lemma AsksAmong.literal (wfs : source.WellFormed)
    (literal' : source.AllAttributes (LiteralAttribute rules)) :
    ∀ {ts : List Subtree} {conf : Configuration} {target : Nat},
      AsksAmong process rules source conf target ts mid asked → Subtree.AllNamed ts →
      (∀ s ∈ Subtree.shapes ts, Literal rules s) → Ready rules conf target →
      ∀ v ∈ mid.verbatim? asked, hasReference v.toList = false
  | [], _, _, among, _, _, _ => nomatch among
  | t :: ts, conf, target, among, named, literal, ready => by
    obtain ⟨first, rest⟩ := List.forall_mem_cons.1 literal
    cases among with
    | wanted found => exact literal_attribute? wfs literal' (.inr rfl) found
    | candidate _ _ _ _ found =>
      exact literal_attribute? ready.wellFormed ready.literal (.inr rfl) found
    | first found asks => exact asks.literal wfs literal' named.1 first (ready.paired found)
    | next run among =>
      have next := ready_mergeNext process source named.1 first ready
      rw [run] at next
      exact among.literal wfs literal' named.2 rest next

end

end Edit

end ConfTree
