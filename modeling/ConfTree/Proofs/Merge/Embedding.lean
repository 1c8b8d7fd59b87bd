import ConfTree.Proofs.Merge.Growth
import ConfTree.Proofs.Merge.Idempotent
import Mathlib.Data.List.Pairwise

/-!
# The source within the merge

Nothing of a well-keyed source is lost in a merge without policies. The merge succeeds
(`mergeSection_undeclared`), and what comes out absorbs the source, so that at every level the
attributes and the child sections of the source have counterparts of their own
(`exists_counterparts`, `exists_paired`). Carried down from the root these counterparts embed the
source in the merge (`overrideBy_embeds`).
-/

namespace ConfTree

open ConfTree.Configuration ConfTree.Text

/-! ## Merges without policies -/

/-- The attribute declares no policy, and if it is a key it has no references. -/
def UndeclaredAttribute (rules : Rules) (a : String × Option String) : Prop :=
  sameName a.1 rules.policyName = false ∧ LiteralAttribute rules a

section

variable {rules : Rules} {source conf : Configuration} {target : Nat} {d : NodeData} {t : Subtree}

/-- An attribute that declares no policy is no reason to replace a section. -/
lemma sparing_undeclared (rules : Rules) : Sparing rules (UndeclaredAttribute rules) where
  respects same h := by
    obtain ⟨undeclared, literal⟩ := h
    have alike : ∀ {name}, sameName _ name = true → sameName _ name = true := fun named =>
      sameName_trans (sameName_symm same) named
    exact ⟨Bool.eq_false_iff.2 fun policy => Bool.eq_false_iff.1 undeclared (alike policy),
      fun looked => literal (looked.imp alike alike)⟩
  spares h policy := by
    rw [h.1] at policy
    cases policy

/-- The attributes of a tree are undeclared exactly if it has no policy and is literal. -/
lemma undeclared_iff {s : Shape} : s.AllAttributes (UndeclaredAttribute rules) ↔
    Undeclared rules s ∧ Literal rules s :=
  ⟨fun h => ⟨fun t ht a ha => (h t ht a ha).1, fun t ht a ha => (h t ht a ha).2⟩,
    fun h t ht a ha => ⟨h.1 t ht a ha, h.2 t ht a ha⟩⟩

namespace Edit

variable (process : Host) in
mutual

/-- A merge of literal sections succeeds where no section declares a policy. -/
lemma mergeSection_undeclared (wfs : source.WellFormed) (appends : rules.appends = false) :
    ∀ (t : Subtree) {conf : Configuration} {target : Nat} {d : NodeData}, TakenFrom source t →
      t.shape.AllAttributes (UndeclaredAttribute rules) → conf.WellFormed →
      conf.readOnly = false → conf.AllAttributes (UndeclaredAttribute rules) →
      conf.live? target = some d → d.kind = .sectionKind →
      ((mergeSection process rules source target t).apply conf).1 = .ok ()
  | .mk id name value attributes children, conf, target, d, taken, meet, wf, writable, all, h,
      sec => by
    obtain ⟨-, good, -⟩ := taken.named wfs
    obtain ⟨own, rest⟩ := Shape.allAttributes_iff.1 meet
    obtain ⟨undeclared, literal⟩ := undeclared_iff.1 (all.shape wf h)
    obtain ⟨conf₁, conf₂, run₁, run₂, confined, -, -⟩ :=
      mergeOwn_spec (.mk id name value attributes children) wf writable h sec good
    have grown := extends_mergeOwn (sparing_undeclared rules).respects good own wf all h sec value
    have run : (mergeValue target value >>= fun _ =>
        mergeAttributes target [] attributes).apply conf = (.ok (), conf₂) :=
      (apply_bind_ok run₁).trans run₂
    rw [run] at grown
    obtain ⟨d₂, h₂, sec₂⟩ := grown.live_section h sec
    have declared := Shape.policy?_of_undeclared (Shape.allAttributes_iff.1 undeclared).1
    rw [mergeSection, apply_bind_ok (look_policyOf process wf h literal declared)]
    dsimp only
    rw [← bind_assoc, apply_bind_ok run]
    exact mergeSections_undeclared wfs appends children (taken.child wfs) rest grown.wellFormed
      (confined.readOnly.trans writable) grown.allAttributes h₂ sec₂

/-- Without policies a merge of sections succeeds. -/
lemma mergeSections_undeclared (wfs : source.WellFormed) (appends : rules.appends = false) :
    ∀ (ts : List Subtree) {conf : Configuration} {target : Nat} {d : NodeData},
      (∀ t ∈ ts, TakenFrom source t) →
      (∀ c ∈ Subtree.shapes ts, c.AllAttributes (UndeclaredAttribute rules)) → conf.WellFormed →
      conf.readOnly = false → conf.AllAttributes (UndeclaredAttribute rules) →
      conf.live? target = some d → d.kind = .sectionKind →
      ((mergeSections process rules source target ts).apply conf).1 = .ok ()
  | [], _, _, _, _, _, _, _, _, _, _ => rfl
  | t :: ts, conf, target, d, taken, meet, wf, writable, all, h, sec => by
    have takenFirst := taken t List.mem_cons_self
    have meetsFirst := meet _ List.mem_cons_self
    have named := takenFirst.named wfs
    obtain ⟨-, literal⟩ := undeclared_iff.1 (all.shape wf h)
    have looked := look_matchOf process wf wfs appends h takenFirst literal.children
      (literal_iff.1 (undeclared_iff.1 meetsFirst).2).1
    -- The first section succeeds, and what it leaves is as good as what it found.
    obtain ⟨conf₁, run, grown, readOnly⟩ : ∃ conf₁,
        (mergeNext process rules source target t).apply conf = (.ok (), conf₁) ∧
        Extends (UndeclaredAttribute rules) conf conf₁ ∧ conf₁.readOnly = false := by
      rw [mergeNext, apply_bind_ok looked]
      cases found : (d.entries .sectionKind).find? fun c =>
        (conf.shape c).pairs rules.keyName t.shape with
      | some c =>
        have hc := List.mem_of_find?_eq_some found
        obtain ⟨e, live, kind, -⟩ := wf.listed target d _ c h hc
        have ok := mergeSection_undeclared wfs appends t takenFirst meetsFirst wf writable all live
          kind
        have confined := confined_mergeSection process rules source t named wf writable live kind
        exact ⟨_, Prod.ext ok rfl, extends_mergeSection source process (sparing_undeclared rules) t
          named meetsFirst wf all live kind, confined.readOnly.trans writable⟩
      | none =>
        obtain ⟨conf₁, copy, confined, -⟩ := copySubtree_spec wf writable h sec named
        have grown := (extends_copySubtree target named meetsFirst conf (.refl wf all)).1
        rw [copy] at grown
        exact ⟨conf₁, apply_bind_ok copy, grown, confined.readOnly.trans writable⟩
    obtain ⟨d₁, h₁, sec₁⟩ := grown.live_section h sec
    rw [mergeSections_cons, apply_bind_ok run]
    exact mergeSections_undeclared wfs appends ts (fun x hx => taken x (List.mem_cons_of_mem _ hx))
      (fun c hc => meet c (List.mem_cons_of_mem _ hc)) grown.wellFormed readOnly
      grown.allAttributes h₁ sec₁

end

end Edit

end

/-! ## Counterparts of entries -/

/-- If an overlay changes nothing, then the members of the upper list have counterparts of their own
in the lower list, which hold what they bring. -/
lemma exists_counterparts {α : Type} {same : α → α → Bool} {combine : α → α → α} {p q : Nat → α}
    {xs ys : List Nat} (nodup : xs.Nodup)
    (h : overlay same combine (xs.map p) (ys.map q) = xs.map p) :
    ∃ g : Nat → Nat, (∀ y ∈ ys, g y ∈ xs ∧ same (p (g y)) (q y) = true ∧
      combine (p (g y)) (q y) = p (g y)) ∧ ∀ y ∈ ys, ∀ z ∈ ys, g y = g z → y = z := by
  induction xs generalizing ys with
  | nil =>
    obtain rfl : ys = [] := by simpa [overlay] using h
    exact ⟨id, List.forall_mem_nil _, List.forall_mem_nil _⟩
  | cons x xs ih =>
    obtain ⟨fresh, nodup⟩ := List.nodup_cons.1 nodup
    rw [List.map_cons, overlay, List.find?_map, List.eraseP_map] at h
    obtain ⟨head, tail⟩ := List.cons.inj h
    obtain ⟨g, counterpart, injective⟩ := ih nodup tail
    cases found : ys.find? (same (p x) ∘ q) with
    | none =>
      -- The head takes nothing, so all counterparts are behind it.
      rw [List.eraseP_of_forall_not (List.find?_eq_none.1 found)] at counterpart injective
      exact ⟨g, fun y hy => ⟨List.mem_cons_of_mem _ (counterpart y hy).1, (counterpart y hy).2⟩,
        injective⟩
    | some y₀ =>
      rw [found] at head
      have paired : (same (p x) ∘ q) y₀ = true := List.find?_some found
      obtain ⟨-, before, after, rfl, other⟩ := List.find?_eq_some_iff_append.1 found
      rw [List.eraseP_append_right _ (fun y hy => by simpa using other y hy),
        List.eraseP_cons_of_pos paired] at counterpart injective
      have rest : ∀ y ∈ before ++ y₀ :: after, y ≠ y₀ → y ∈ before ++ after := by
        intro y hy hne
        simpa [hne] using hy
      refine ⟨Function.update g y₀ x, fun y hy => ?_, fun y hy z hz equal => ?_⟩
      · by_cases hne : y = y₀
        · rw [hne, Function.update_self]
          exact ⟨List.mem_cons_self, paired, head⟩
        · rw [Function.update_of_ne hne]
          obtain ⟨hm, holds⟩ := counterpart y (rest y hy hne)
          exact ⟨List.mem_cons_of_mem _ hm, holds⟩
      · -- Only one member has the head for its counterpart, since the head does not come again.
        by_cases hy₀ : y = y₀ <;> by_cases hz₀ : z = y₀
        · rw [hy₀, hz₀]
        · rw [hy₀, Function.update_self, Function.update_of_ne hz₀] at equal
          rw [equal] at fresh
          exact absurd (counterpart z (rest z hz hz₀)).1 fresh
        · rw [hz₀, Function.update_self, Function.update_of_ne hy₀] at equal
          rw [← equal] at fresh
          exact absurd (counterpart y (rest y hy hy₀)).1 fresh
        · rw [Function.update_of_ne hy₀, Function.update_of_ne hz₀] at equal
          exact injective y (rest y hy hy₀) z (rest z hz hz₀) equal

/-! ## Counterparts at one level -/

/-- Without a policy a section absorbs all of another one, its child sections included. -/
lemma Absorbs.of_undeclared {rules : Rules} {s t : Shape} (h : Absorbs rules s t)
    (undeclared : Undeclared rules s) :
    s.lay t = s ∧ AbsorbsAll rules s.children t.children := by
  have declared := Shape.policy?_of_undeclared (Shape.allAttributes_iff.1 undeclared).1
  cases h with
  | all _ held rest => exact ⟨held, rest⟩
  | attributes policy => simp [declared] at policy
  | sections policy => simp [declared] at policy
  | stop policy => simp [declared] at policy

namespace Configuration

variable {rules : Rules} {b c : Configuration} {p q : Nat} {pd qd : NodeData}

/-- Each child section of a well-keyed section is paired with one of its own in a section that
absorbs all of them, and absorbed by it. -/
lemma exists_paired (wfb : b.WellFormed) (wfc : c.WellFormed) (hp : b.live? p = some pd)
    (hq : c.live? q = some qd) (wellKeyed : WellKeyed rules (b.shape p))
    (absorbs : AbsorbsAll rules (c.shape q).children (b.shape p).children) :
    ∃ g : Nat → Nat, (∀ x ∈ pd.entries .sectionKind, g x ∈ qd.entries .sectionKind ∧
      (c.shape (g x)).pairs rules.keyName (b.shape x) = true ∧
      Absorbs rules (c.shape (g x)) (b.shape x)) ∧
      ∀ x ∈ pd.entries .sectionKind, ∀ y ∈ pd.entries .sectionKind, g x = g y → x = y := by
  have childrenB : (b.shape p).children = (pd.entries .sectionKind).map b.shape := by
    rw [shape_eq wfb hp]
    rfl
  have childrenC : (c.shape q).children = (qd.entries .sectionKind).map c.shape := by
    rw [shape_eq wfc hq]
    rfl
  have each : ∀ x ∈ pd.entries .sectionKind, ∃ y ∈ qd.entries .sectionKind,
      (c.shape y).pairs rules.keyName (b.shape x) = true ∧
      Absorbs rules (c.shape y) (b.shape x) := by
    intro x hx
    rw [absorbsAll_iff, childrenB, childrenC] at absorbs
    obtain ⟨s, found, absorbed⟩ := absorbs _ (List.mem_map_of_mem hx)
    have paired := List.find?_some found
    obtain ⟨y, hy, rfl⟩ := List.mem_map.1 (List.mem_of_find?_eq_some found)
    exact ⟨y, hy, paired, absorbed⟩
  choose! g holds using each
  refine ⟨g, holds, fun x hx y hy equal => ?_⟩
  by_contra hne
  -- Two siblings that pair with one section cannot be told apart.
  have inside : ∀ z ∈ pd.entries .sectionKind, WellKeyed rules (b.shape z) := fun z hz =>
    wellKeyed.child (by rw [childrenB]; exact List.mem_map_of_mem hz)
  have distinct := wellKeyed.distinct _ (Shape.mem_sections_self _)
  rw [childrenB, List.pairwise_map] at distinct
  have symm : Std.Symm fun x y => Apart rules (b.shape x) (b.shape y) := ⟨fun _ _ h => h.symm⟩
  have apart := distinct.forall hx hy hne
  have other := (inside x hx).not_pairs (inside y hy) apart (holds x hx).2.1
  rw [equal, (holds y hy).2.1] at other
  cases other

/-- The attributes of a section have counterparts of their own in a section over which it can be
laid without a change. -/
lemma exists_paired_attributes (wfb : b.WellFormed) (wfc : c.WellFormed)
    (hp : b.live? p = some pd) (hq : c.live? q = some qd)
    (held : (c.shape q).lay (b.shape p) = c.shape q) :
    ∃ g : Nat → Nat, (∀ x ∈ pd.entries .attributeKind, g x ∈ qd.entries .attributeKind ∧
      sameName (c.pairOf (g x)).1 (b.pairOf x).1 = true ∧
      (c.pairOf (g x)).2 = (b.pairOf x).2) ∧
      ∀ x ∈ pd.entries .attributeKind, ∀ y ∈ pd.entries .attributeKind, g x = g y → x = y := by
  have attributes := congrArg Shape.attributes held
  rw [shape_eq wfb hp, shape_eq wfc hq] at attributes
  obtain ⟨g, counterpart, injective⟩ := exists_counterparts (wfc.nodup_entries hq _) attributes
  refine ⟨g, fun x hx => ?_, injective⟩
  obtain ⟨hm, same, taken⟩ := counterpart x hx
  exact ⟨hm, same, (congrArg Prod.snd taken).symm⟩

/-- The second node can stand for the first one, of the given kind: it has its name, and the value
of an attribute or all that there is in a section. -/
def StandsFor (rules : Rules) (b c : Configuration) (k : Kind) (x y : Nat) : Prop :=
  sameName (c.pairOf y).1 (b.pairOf x).1 = true ∧
    match k with
    | .attributeKind => (c.pairOf y).2 = (b.pairOf x).2
    | .sectionKind => Absorbs rules (c.shape y) (b.shape x)

/-- Every entry of a section has an entry of its own that stands for it in a section that absorbs
the whole. -/
lemma exists_step (wfb : b.WellFormed) (wfc : c.WellFormed) (hp : b.live? p = some pd)
    (hq : c.live? q = some qd) (wellKeyed : WellKeyed rules (b.shape p))
    (undeclared : Undeclared rules (c.shape q)) (absorbs : Absorbs rules (c.shape q) (b.shape p))
    (k : Kind) : ∃ g : Nat → Nat,
      (∀ x ∈ pd.entries k, g x ∈ qd.entries k ∧ StandsFor rules b c k x (g x)) ∧
      ∀ x ∈ pd.entries k, ∀ y ∈ pd.entries k, g x = g y → x = y := by
  obtain ⟨held, all⟩ := absorbs.of_undeclared undeclared
  cases k with
  | attributeKind => exact exists_paired_attributes wfb wfc hp hq held
  | sectionKind =>
    obtain ⟨g, children, distinct⟩ := exists_paired wfb wfc hp hq wellKeyed all
    refine ⟨g, fun x hx => ?_, distinct⟩
    obtain ⟨hm, pairs, absorbed⟩ := children x hx
    obtain ⟨d, hd, -⟩ := wfb.listed p pd _ x hp hx
    obtain ⟨e, he, -⟩ := wfc.listed q qd _ (g x) hq hm
    rw [Shape.pairs, Bool.and_eq_true, name_shape wfb hd, name_shape wfc he] at pairs
    refine ⟨hm, ?_, absorbed⟩
    rw [pairOf_eq hd, pairOf_eq he]
    exact pairs.1

/-! ## Counterparts of all nodes -/

/-- Where maps of entries lead from the root on: the root stays the root, and any other node goes
where it is sent from the place of its parent. -/
def carried (b : Configuration) (step : Kind → NodeId → NodeId → NodeId → NodeId) (id : NodeId) :
    NodeId :=
  match b.live? id with
  | none => root
  | some d =>
    match d.parent with
    | none => root
    | some p => if p < id then step d.kind p (carried b step p) id else root
termination_by id

section

variable (wf : b.WellFormed) (step : Kind → NodeId → NodeId → NodeId → NodeId)

include wf

/-- The root is carried to the root. -/
lemma carried_root : carried b step root = root := by
  obtain ⟨d, hd, -, parent⟩ := wf.root
  rw [carried, hd]
  simp only [parent]

/-- An entry is carried by a step from where its parent is. -/
lemma carried_entry {x : Nat} {d : NodeData} (h : b.live? x = some d) (hp : d.parent = some p) :
    carried b step x = step d.kind p (carried b step p) x := by
  rw [carried, h]
  simp only [hp, if_pos (wf.parent h hp).1]

end

/-- The maps send the entries of a section to entries of their own that stand for them, wherever the
section is absorbed. -/
def Steps (rules : Rules) (b c : Configuration) (step : Kind → NodeId → NodeId → NodeId → NodeId) :
    Prop :=
  ∀ k (p q : Nat) pd qd, b.live? p = some pd → pd.kind = .sectionKind → c.live? q = some qd →
    qd.kind = .sectionKind → Absorbs rules (c.shape q) (b.shape p) →
    (∀ x ∈ pd.entries k, step k p q x ∈ qd.entries k ∧ StandsFor rules b c k x (step k p q x)) ∧
    ∀ x ∈ pd.entries k, ∀ y ∈ pd.entries k, step k p q x = step k p q y → x = y

/-- Well-keyed sections that are absorbed without policies have such maps. -/
lemma exists_steps (wfb : b.WellFormed) (wfc : c.WellFormed)
    (wellKeyed : WellKeyed rules (b.shape root)) (undeclared : Undeclared rules (c.shape root)) :
    ∃ step, Steps rules b c step := by
  have each : ∀ k (p q : Nat), ∃ g : Nat → Nat, ∀ pd qd, b.live? p = some pd →
      pd.kind = .sectionKind → c.live? q = some qd → qd.kind = .sectionKind →
      Absorbs rules (c.shape q) (b.shape p) →
      (∀ x ∈ pd.entries k, g x ∈ qd.entries k ∧ StandsFor rules b c k x (g x)) ∧
      ∀ x ∈ pd.entries k, ∀ y ∈ pd.entries k, g x = g y → x = y := by
    intro k p q
    by_cases found : ∃ pd qd, b.live? p = some pd ∧ pd.kind = .sectionKind ∧
      c.live? q = some qd ∧ qd.kind = .sectionKind ∧ Absorbs rules (c.shape q) (b.shape p)
    · obtain ⟨pd, qd, hp, sec, hq, sec', absorbs⟩ := found
      have keyed := (wfb.below_root hp).hereditary wfb (fun h hc => WellKeyed.child h hc) hp sec
        wellKeyed
      have open' : Undeclared rules (c.shape q) := (wfc.below_root hq).hereditary wfc
        (fun h hc => Shape.AllAttributes.child h hc) hq sec' undeclared
      obtain ⟨g, holds⟩ := exists_step wfb wfc hp hq keyed open' absorbs k
      refine ⟨g, fun pd' qd' hp' _ hq' _ _ => ?_⟩
      rw [hp] at hp'
      rw [hq] at hq'
      cases hp'
      cases hq'
      exact holds
    · exact ⟨id, fun pd qd hp sec hq sec' absorbs =>
        absurd ⟨pd, qd, hp, sec, hq, sec', absorbs⟩ found⟩
  choose step holds using each
  exact ⟨step, holds⟩

section

variable {step : Kind → NodeId → NodeId → NodeId → NodeId} (wfb : b.WellFormed) (wfc : c.WellFormed)
  (steps : Steps rules b c step) (absorbs : Absorbs rules (c.shape root) (b.shape root))

include wfb wfc steps absorbs

/-- Every section is carried to one that absorbs it. -/
lemma carried_section {x : Nat} {d : NodeData} (h : b.live? x = some d)
    (sec : d.kind = .sectionKind) :
    ∃ e, c.live? (carried b step x) = some e ∧ e.kind = .sectionKind ∧
      Absorbs rules (c.shape (carried b step x)) (b.shape x) := by
  induction x using Nat.strongRecOn generalizing d with
  | ind x ih =>
    by_cases top : x = root
    · obtain ⟨e, he, sec', -⟩ := wfc.root
      rw [top, carried_root wfb]
      exact ⟨e, he, sec', absorbs⟩
    · obtain ⟨p, pd, parent, lt, hp, sec', -⟩ := wfb.owned x d h top
      obtain ⟨qd, hq, kind, absorbed⟩ := ih p lt hp sec'
      have hm := wfb.mem_entries h parent hp
      obtain ⟨hm', -, stands⟩ := (steps _ p _ pd qd hp sec' hq kind absorbed).1 x (sec ▸ hm)
      obtain ⟨e, he, kind', -⟩ := wfc.listed _ qd _ _ hq hm'
      rw [carried_entry wfb step h parent, sec]
      exact ⟨e, he, kind', stands⟩

/-- Every other node is carried to an entry of the section to which its parent is carried, and this
entry stands for it. -/
lemma carried_spec {x : Nat} {d : NodeData} (h : b.live? x = some d) (other : x ≠ root) :
    ∃ (p : Nat) (e : NodeData), p < x ∧ d.parent = some p ∧
      c.live? (carried b step x) = some e ∧ e.kind = d.kind ∧
      e.parent = some (carried b step p) ∧ StandsFor rules b c d.kind x (carried b step x) := by
  obtain ⟨p, pd, parent, lt, hp, sec, -⟩ := wfb.owned x d h other
  obtain ⟨qd, hq, kind, absorbed⟩ := carried_section wfb wfc steps absorbs hp sec
  have hm := wfb.mem_entries h parent hp
  obtain ⟨hm', stands⟩ := (steps _ p _ pd qd hp sec hq kind absorbed).1 x hm
  obtain ⟨e, he, kind', parent'⟩ := wfc.listed _ qd _ _ hq hm'
  rw [carried_entry wfb step h parent]
  exact ⟨p, e, lt, parent, he, kind', parent', stands⟩

/-- No two nodes are carried to the same node. -/
lemma carried_injective {x y : Nat} {d e : NodeData} (hx : b.live? x = some d)
    (hy : b.live? y = some e) (equal : carried b step x = carried b step y) : x = y := by
  obtain ⟨r, hr, -, noParent⟩ := wfc.root
  -- The root has no parent, so nothing else is carried there.
  have apart : ∀ {z : Nat} {zd : NodeData}, b.live? z = some zd → z ≠ root →
      carried b step z ≠ root := by
    intro z zd hz hne same
    obtain ⟨p, f, -, -, live, -, parent, -⟩ := carried_spec wfb wfc steps absorbs hz hne
    rw [same, hr] at live
    cases live
    rw [noParent] at parent
    cases parent
  induction x using Nat.strongRecOn generalizing y d e with
  | ind x ih =>
    by_cases topX : x = root <;> by_cases topY : y = root
    · rw [topX, topY]
    · rw [topX, carried_root wfb] at equal
      exact absurd equal.symm (apart hy topY)
    · rw [topY, carried_root wfb] at equal
      exact absurd equal (apart hx topX)
    · obtain ⟨p, f, lt, parent, live, kind, up, -⟩ := carried_spec wfb wfc steps absorbs hx topX
      obtain ⟨q, g, -, parent', live', kind', up', -⟩ :=
        carried_spec wfb wfc steps absorbs hy topY
      rw [← equal, live] at live'
      cases live'
      rw [up] at up'
      obtain ⟨-, pd, hp, sec, -⟩ := wfb.parent hx parent
      obtain ⟨-, qd, hq, -⟩ := wfb.parent hy parent'
      obtain rfl := ih p lt hp hq (Option.some.inj up')
      rw [hp] at hq
      cases hq
      -- Both are entries of one section, of one kind.
      have same : e.kind = d.kind := kind'.symm.trans kind
      have hm := wfb.mem_entries hx parent hp
      have hm' := wfb.mem_entries hy parent' hp
      rw [same] at hm'
      obtain ⟨rd, hrd, sec', absorbed⟩ := carried_section wfb wfc steps absorbs hp sec
      rw [carried_entry wfb step hx parent, carried_entry wfb step hy parent', same] at equal
      exact (steps _ p _ pd rd hp sec hrd sec' absorbed).2 x hm y hm' equal

end

/-- A map of the nodes of the second configuration to nodes of the third one that keeps the tree,
the names but for the case, and the values that there are. The root has the name that it has in the
first configuration. -/
structure Embeds (a b c : Configuration) (f : NodeId → NodeId) : Prop where
  root : f Configuration.root = Configuration.root
  rootName : c.nameOf Configuration.root = a.nameOf Configuration.root
  injective : ∀ (x y : Nat) d e, b.live? x = some d → b.live? y = some e → f x = f y → x = y
  node : ∀ (x : Nat) d, b.live? x = some d →
    ∃ e, c.live? (f x) = some e ∧ e.kind = d.kind ∧ e.parent = d.parent.map f ∧
      (x ≠ Configuration.root → sameName e.name d.name = true) ∧
      (d.kind = .attributeKind → e.value = d.value) ∧ ∀ v ∈ d.value, e.value = some v

/-- A section that absorbs another one without a policy has its value, if there is one. -/
lemma value_of_absorbs (wfb : b.WellFormed) (wfc : c.WellFormed) (hp : b.live? p = some pd)
    (hq : c.live? q = some qd) (undeclared : Undeclared rules (c.shape q))
    (absorbs : Absorbs rules (c.shape q) (b.shape p)) : ∀ v ∈ pd.value, qd.value = some v := by
  have value := congrArg Shape.value (absorbs.of_undeclared undeclared).1
  rw [shape_eq wfb hp, shape_eq wfc hq] at value
  intro v hv
  rw [← show (pd.value.or qd.value) = qd.value from value, hv, Option.some_or]

/-- A well-keyed configuration is embedded in one without policies that absorbs it. -/
lemma exists_embeds (wfb : b.WellFormed) (wfc : c.WellFormed)
    (rootName : c.nameOf root = a.nameOf root) (wellKeyed : WellKeyed rules (b.shape root))
    (undeclared : Undeclared rules (c.shape root))
    (absorbs : Absorbs rules (c.shape root) (b.shape root)) : ∃ f, Embeds a b c f := by
  obtain ⟨step, steps⟩ := exists_steps wfb wfc wellKeyed undeclared
  refine ⟨carried b step, carried_root wfb step, rootName, fun x y d e hx hy =>
    carried_injective wfb wfc steps absorbs hx hy, fun x d hx => ?_⟩
  have sections : d.kind = .sectionKind → ∀ e, c.live? (carried b step x) = some e →
      ∀ v ∈ d.value, e.value = some v := by
    intro sec e he
    obtain ⟨e', he', sec', absorbed⟩ := carried_section wfb wfc steps absorbs hx sec
    have open' : Undeclared rules (c.shape (carried b step x)) := (wfc.below_root he').hereditary
      wfc (fun h hc => Shape.AllAttributes.child h hc) he' sec' undeclared
    exact value_of_absorbs wfb wfc hx he open' absorbed
  by_cases top : x = root
  · subst top
    obtain ⟨d', hd', sec, parent⟩ := wfb.root
    rw [hx] at hd'
    cases hd'
    obtain ⟨e, he, sec', parent'⟩ := wfc.root
    rw [← carried_root wfb step] at he
    refine ⟨e, he, sec'.trans sec.symm, by rw [parent', parent]; rfl, fun h => absurd rfl h,
      fun attr => ?_, sections sec e he⟩
    rw [sec] at attr
    cases attr
  · obtain ⟨p, e, -, parent, he, kind, parent', name, stands⟩ :=
      carried_spec wfb wfc steps absorbs hx top
    rw [pairOf_eq hx, pairOf_eq he] at name
    have whole : d.kind = .attributeKind → e.value = d.value := by
      intro attr
      rw [attr] at stands
      dsimp only at stands
      rwa [pairOf_eq hx, pairOf_eq he] at stands
    refine ⟨e, he, kind, by rw [parent', parent]; rfl, fun _ => name, whole, ?_⟩
    cases hk : d.kind with
    | sectionKind => exact sections hk e he
    | attributeKind =>
      intro v hv
      rw [whole hk]
      exact hv

/-! ## Whole configurations -/

/-- The source wins, and nothing of it is lost: if neither configuration declares a policy, no key
has references and the source is well-keyed, then the merge succeeds, and the source is embedded in
what comes out with all its values. Only the root keeps the name that it had. -/
theorem overrideBy_embeds {a b : Configuration} {rules : Rules} (ha : Reachable a)
    (hb : Reachable b) (writable : a.readOnly = false) (appends : rules.appends = false)
    (undeclared : Undeclared rules (a.shape root)) (wellKeyed : WellKeyed rules (b.shape root))
    (literalA : Literal rules (a.shape root)) (literalB : Literal rules (b.shape root))
    (process : Host) :
    ∃ c, (Edit.overrideBy process rules b).apply a = (.ok (), c) ∧ ∃ f, Embeds a b c f := by
  have wfa := ha.wellFormed
  have wfb := hb.wellFormed
  obtain ⟨d, h, sec, -⟩ := wfa.root
  obtain ⟨e, h', sec', -⟩ := wfb.root
  have taken := takenFrom_subtree h' sec'
  have allA : a.AllAttributes (UndeclaredAttribute rules) :=
    (allAttributes_iff wfa).2 (undeclared_iff.2 ⟨undeclared, literalA⟩)
  have meet : (b.shape root).AllAttributes (UndeclaredAttribute rules) :=
    undeclared_iff.2 ⟨wellKeyed.undeclared, literalB⟩
  have ok := Edit.mergeSection_undeclared process wfb appends (b.subtree root) taken meet wfa
    writable allA h sec
  have run : (Edit.mergeSection process rules b root (b.subtree root)).apply a =
      (.ok (), ((Edit.mergeSection process rules b root (b.subtree root)).apply a).2) :=
    Prod.ext ok rfl
  have grown := Edit.extends_mergeSection b process (sparing_undeclared rules) (b.subtree root)
    (taken.named wfb) meet wfa allA h sec
  have merged := Edit.mergeSection_absorbs process wfb appends (b.subtree root) taken wellKeyed
    literalB wfa writable h sec literalA run
  obtain ⟨r, hr, named, -⟩ := grown.kept root d h
  have rootName := (nameOf_eq hr).trans (named.trans (nameOf_eq h).symm)
  refine ⟨_, (overrideBy_apply process wfb h sec).trans run, ?_⟩
  exact exists_embeds wfb grown.wellFormed rootName wellKeyed
    (undeclared_iff.1 (grown.allAttributes.shape grown.wellFormed hr)).1 merged.absorbs

/-- Repeated sections and attributes of the target, a keyed pair in the source, and values that are
null. -/
theorem overrideBy_embeds_sample :
    let a := (withRoot "base").operateAll
      [(.bare, .addSection 0 "Server" (some "kept")), (.bare, .addAttribute 1 "name" (some "x")),
        (.bare, .addSection 0 "server" (some "old")), (.bare, .addAttribute 3 "name" (some "x")),
        (.bare, .addAttribute 1 "Port" (some "1")), (.bare, .addAttribute 1 "port" (some "2"))]
    let b := (withRoot "Base").operateAll
      [(.bare, .addSection 0 "server" none), (.bare, .addAttribute 1 "name" (some "x")),
        (.bare, .addAttribute 1 "PORT" (some "3")), (.bare, .addAttribute 1 "port" none),
        (.bare, .addSection 0 "SERVER" (some "new")), (.bare, .addAttribute 5 "Name" (some "y"))]
    ∃ c, (Edit.overrideBy .bare .standard b).apply a = (.ok (), c) ∧
      (c.shape root).sections.map (fun s => (s.name, s.value, s.attributes)) =
        [("base", none, []),
          ("Server", some "kept", [("name", some "x"), ("Port", some "3"), ("port", none)]),
          ("server", some "old", [("name", some "x")]),
          ("SERVER", some "new", [("Name", some "y")])] ∧
      ∃ f, Embeds a b c f := by
  intro a b
  have ha : Reachable a := (Reachable.withRoot "base").operateAll _ (by simp [Operation.others])
  have hb : Reachable b := (Reachable.withRoot "Base").operateAll _ (by simp [Operation.others])
  have writable : a.readOnly = false := by decide +kernel
  have undeclared : Undeclared .standard (a.shape root) := by decide +kernel
  have wellKeyed : WellKeyed .standard (b.shape root) := by decide +kernel
  have literalA : Literal .standard (a.shape root) := by decide +kernel
  have literalB : Literal .standard (b.shape root) := by decide +kernel
  obtain ⟨c, run, embeds⟩ :=
    overrideBy_embeds ha hb writable rfl undeclared wellKeyed literalA literalB .bare
  obtain rfl : ((Edit.overrideBy .bare .standard b).apply a).2 = c := congrArg Prod.snd run
  exact ⟨_, run, by decide +kernel, embeds⟩

/-- The name of the root of the source is lost: a merge of a root into one of another name leaves no
root of its name to which it could be sent. -/
theorem not_embeds_root_name :
    let a := withRoot "base"
    let b := withRoot "layer"
    Reachable a ∧ Reachable b ∧ a.readOnly = false ∧ Undeclared .standard (a.shape root) ∧
      WellKeyed .standard (b.shape root) ∧ Literal .standard (a.shape root) ∧
      Literal .standard (b.shape root) ∧
      ∃ c, (Edit.overrideBy .bare .standard b).apply a = (.ok (), c) ∧
        ¬ ∃ f : NodeId → NodeId, f root = root ∧
          ∀ (x : Nat) d, b.live? x = some d →
            ∃ e, c.live? (f x) = some e ∧ sameName e.name d.name = true := by
  intro a b
  have ok : ((Edit.overrideBy .bare .standard b).apply a).1 = .ok () := by decide +kernel
  refine ⟨.withRoot _, .withRoot _, by decide +kernel, by decide +kernel, by decide +kernel,
    by decide +kernel, by decide +kernel, ((Edit.overrideBy .bare .standard b).apply a).2,
    Prod.ext ok rfl, ?_⟩
  rintro ⟨f, top, node⟩
  obtain ⟨d, hd, -⟩ := (wellFormed_withRoot "layer").root
  obtain ⟨e, he, name⟩ := node root d hd
  rw [top] at he
  have layer : (b.live? root).map (·.name) = some "layer" := by decide +kernel
  have base : (((Edit.overrideBy .bare .standard b).apply a).2.live? root).map (·.name) =
      some "base" := by decide +kernel
  rw [hd] at layer
  rw [he] at base
  rw [show e.name = "base" from Option.some.inj base,
    show d.name = "layer" from Option.some.inj layer] at name
  exact absurd name (by decide +kernel)

end Configuration

end ConfTree
