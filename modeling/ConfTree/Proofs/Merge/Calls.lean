import ConfTree.Proofs.Merge.Beside
import ConfTree.Proofs.Operation.Edits

/-!
# The sections that a merge meets

A merge of a section comes to merge sections of the source into sections below its target, each in
its turn. `Meets` lists these merges with the configurations that they find. With a well-keyed
source a section is met once at most: until it is met nothing below it changes (`Meets.before`), and
what the merge leaves there stays (`Meets.after`). A section that is not met keeps its own, unless
one above it is replaced (`keepsOwn_or_touched`).
-/

namespace ConfTree.Edit

open ConfTree.Configuration Relation

mutual

/-- The merge of a section into a target comes to merge another one into `s`, and finds `mid`. -/
inductive Meets (process : Host) (rules : Rules) (source : Configuration) :
    Configuration → NodeId → Subtree → Configuration → NodeId → Subtree → Prop where
  | self {conf : Configuration} {target : NodeId} {t : Subtree} :
    Meets process rules source conf target t conf target t
  | sections {conf mid : Configuration} {target s id : NodeId} {name : String}
      {value : Option String} {attributes : List Attribute} {children : List Subtree}
      {u : Subtree} :
    conf.policyOf process rules target = .ok .sections →
    MeetsAmong process rules source conf target children mid s u →
    Meets process rules source conf target (.mk id name value attributes children) mid s u
  | all {conf conf₁ conf₂ mid : Configuration} {target s id : NodeId} {name : String}
      {value : Option String} {attributes : List Attribute} {children : List Subtree}
      {u : Subtree} :
    conf.policyOf process rules target = .ok .all →
    (mergeValue target value).apply conf = (.ok (), conf₁) →
    (mergeAttributes target [] attributes).apply conf₁ = (.ok (), conf₂) →
    MeetsAmong process rules source conf₂ target children mid s u →
    Meets process rules source conf target (.mk id name value attributes children) mid s u

/-- The same of a merge of child sections. -/
inductive MeetsAmong (process : Host) (rules : Rules) (source : Configuration) :
    Configuration → NodeId → List Subtree → Configuration → NodeId → Subtree → Prop where
  | first {conf mid : Configuration} {target child s : NodeId} {t u : Subtree} {ts : List Subtree} :
    conf.matchOf process rules source target t.id t.name = .ok (some child) →
    Meets process rules source conf child t mid s u →
    MeetsAmong process rules source conf target (t :: ts) mid s u
  | next {conf conf₁ mid : Configuration} {target s : NodeId} {t u : Subtree} {ts : List Subtree} :
    (mergeNext process rules source target t).apply conf = (.ok (), conf₁) →
    MeetsAmong process rules source conf₁ target ts mid s u →
    MeetsAmong process rules source conf target (t :: ts) mid s u

end

variable {process : Host} {rules : Rules} {source conf conf₁ mid post : Configuration}
  {target child s : Nat} {t u : Subtree} {ts : List Subtree} {done : List Shape} {d : NodeData}

/-! ## Runs of a merge -/

section

variable {id : NodeId} {name : String} {value : Option String} {attributes : List Attribute}
  {children : List Subtree}

/-- By the policy for sections only child sections are merged. -/
lemma apply_mergeSection_sections (h : conf.policyOf process rules target = .ok .sections) :
    (mergeSection process rules source target (.mk id name value attributes children)).apply conf =
      (mergeSections process rules source target children).apply conf := by
  rw [mergeSection, apply_bind, apply_look, h]

/-- Without a policy the value and the attributes are merged, and then the child sections. -/
lemma apply_mergeSection_all (h : conf.policyOf process rules target = .ok .all)
    {conf₂ : Configuration} (run₁ : (mergeValue target value).apply conf = (.ok (), conf₁))
    (run₂ : (mergeAttributes target [] attributes).apply conf₁ = (.ok (), conf₂)) :
    (mergeSection process rules source target (.mk id name value attributes children)).apply conf =
      (mergeSections process rules source target children).apply conf₂ := by
  rw [mergeSection, apply_bind, apply_look, h]
  exact (apply_bind_ok run₁).trans (apply_bind_ok run₂)

end

/-- A section that is paired is merged into its partner. -/
lemma apply_mergeNext_some
    (h : conf.matchOf process rules source target t.id t.name = .ok (some child)) :
    (mergeNext process rules source target t).apply conf =
      (mergeSection process rules source child t).apply conf := by
  rw [mergeNext, apply_bind, apply_look, h]

/-- A section without a partner is copied. -/
lemma apply_mergeNext_none (h : conf.matchOf process rules source target t.id t.name = .ok none) :
    (mergeNext process rules source target t).apply conf =
      (copySubtree target t >>= fun _ => pure ()).apply conf := by
  rw [mergeNext, apply_bind, apply_look, h]

variable (process rules source) in
/-- Merging or copying one section makes changes only. -/
lemma Makes.mergeNext (target : NodeId) (t : Subtree) :
    Makes Change (Edit.mergeNext process rules source target t) := by
  refine .bind (.look _) fun paired => ?_
  cases paired with
  | some id => exact Makes.mergeSection process rules source id t
  | none => exact .bind (.copySubtree target t) fun _ => .pure ()

/-- A child section that the section of the source is not paired with is as before after its merge,
however this ends. -/
lemma sameBelow_mergeNext (named : t.Named) (wf : conf.WellFormed)
    (writable : conf.readOnly = false) (h : conf.live? target = some d)
    (sec : d.kind = .sectionKind)
    {out : Except ConfigError Unit}
    (run : (mergeNext process rules source target t).apply conf = (out, conf₁)) {y : Nat}
    (hy : y ∈ conf.childrenOf target)
    (other : conf.matchOf process rules source target t.id t.name ≠ .ok (some y)) :
    SameBelow y conf conf₁ ∧ y ∈ conf₁.childrenOf target := by
  cases of_mergeNext named wf writable h sec run with
  | unpaired => exact ⟨.refl, hy⟩
  | @merged c _ _ found hc run =>
    have hne : y ≠ c := by
      rintro rfl
      exact other found
    rw [childrenOf_eq h] at hc hy
    obtain ⟨e, live, kind, -⟩ := wf.listed target d _ c h hc
    have confined := confined_mergeSection process rules source t named wf writable live kind
    rw [run] at confined
    refine ⟨confined.sameBelow wf h hc hy hne, ?_⟩
    rw [childrenOf_eq (confined.live_parent wf h hc)]
    exact hy
  | copied _ _ appended =>
    obtain ⟨e, he, -, -, -, children⟩ := appended.own d h
    rw [childrenOf_eq h] at hy
    refine ⟨appended.sameBelow wf h hy, ?_⟩
    rw [childrenOf_eq he]
    exact children.subset hy

mutual

/-- What is done before a section is met are changes. -/
lemma Meets.changes : ∀ {t : Subtree} {conf : Configuration} {target : Nat},
    Meets process rules source conf target t mid s u → ReflTransGen Change conf mid
  | .mk _ _ value attributes _, conf, target, meets => by
    cases meets with
    | self => exact .refl
    | sections _ among => exact among.changes
    | all _ run₁ run₂ among =>
      have own := ((Makes.mergeValue target value).of_run run₁).trans
        ((Makes.mergeAttributes target [] attributes).of_run run₂)
      exact own.trans among.changes

/-- Changes lead to the state in which two sections meet. -/
lemma MeetsAmong.changes : ∀ {ts : List Subtree} {conf : Configuration} {target : Nat},
    MeetsAmong process rules source conf target ts mid s u → ReflTransGen Change conf mid
  | [], _, _, among => nomatch among
  | t :: ts, conf, target, among => by
    cases among with
    | first _ meets => exact meets.changes
    | next run among =>
      exact ((Makes.mergeNext process rules source target t).of_run run).trans among.changes

end

mutual

/-- A merge that fails at a section that it meets ends there. -/
lemma Meets.error {e : ConfigError} (inner : (mergeSection process rules source s u).apply mid =
    (.error e, post)) : ∀ {t : Subtree} {conf : Configuration} {target : Nat},
    Meets process rules source conf target t mid s u →
    (mergeSection process rules source target t).apply conf = (.error e, post)
  | .mk .., conf, target, meets => by
    cases meets with
    | self => exact inner
    | sections policy among =>
      rw [apply_mergeSection_sections policy]
      exact among.error inner
    | all policy run₁ run₂ among =>
      rw [apply_mergeSection_all policy run₁ run₂]
      exact among.error inner

/-- A merge in which one meeting fails fails with its error. -/
lemma MeetsAmong.error {e : ConfigError}
    (inner : (mergeSection process rules source s u).apply mid = (.error e, post)) :
    ∀ {ts : List Subtree} {conf : Configuration} {target : Nat},
    MeetsAmong process rules source conf target ts mid s u →
    (mergeSections process rules source target ts).apply conf = (.error e, post)
  | [], _, _, among => nomatch among
  | t :: ts, conf, target, among => by
    rw [mergeSections_cons]
    cases among with
    | first found meets =>
      rw [apply_bind, apply_mergeNext_some found, meets.error inner]
    | next run among =>
      rw [apply_bind_ok run]
      exact among.error inner

end

/-! ## Well-keyed merges -/

/-- A well-keyed section of the source can be merged into a section. -/
structure Mergeable (rules : Rules) (source conf : Configuration) (target : Nat) (t : Subtree) :
    Prop where
  wellFormed : conf.WellFormed
  writable : conf.readOnly = false
  live : ∃ d, conf.live? target = some d ∧ d.kind = .sectionKind
  taken : TakenFrom source t
  wellKeyed : WellKeyed rules t.shape
  literal : Literal rules (conf.shape target)
  literal' : Literal rules t.shape

/-- Well-keyed child sections of the source can be merged, others being `done`. -/
structure MergeableAll (rules : Rules) (source conf : Configuration) (target : Nat)
    (done : List Shape) (ts : List Subtree) : Prop where
  wellFormed : conf.WellFormed
  writable : conf.readOnly = false
  live : ∃ d, conf.live? target = some d ∧ d.kind = .sectionKind
  taken : ∀ t ∈ ts, TakenFrom source t
  siblings : Siblings rules (done ++ Subtree.shapes ts)
  literal : Literal rules (conf.shape target)
  absorbs : AbsorbsAll rules (conf.shape target).children done

section

variable (wfs : source.WellFormed)

include wfs

/-- Child sections can be merged before any of them is. -/
lemma Mergeable.all {id : NodeId} {name : String} {value : Option String}
    {attributes : List Attribute} {children : List Subtree}
    (h : Mergeable rules source conf target (.mk id name value attributes children)) :
    MergeableAll rules source conf target [] children where
  wellFormed := h.wellFormed
  writable := h.writable
  live := h.live
  taken := h.taken.child wfs
  siblings := ⟨fun _ hc => h.wellKeyed.child hc, (literal_iff.1 h.literal').2,
    h.wellKeyed.distinct _ (Shape.mem_sections_self _)⟩
  literal := h.literal
  absorbs := .nil

/-- After a merge of the value and the attributes the target can be merged into as before. -/
lemma Mergeable.own {conf₂ : Configuration} (h : Mergeable rules source conf target t)
    (run₁ : (mergeValue target t.value).apply conf = (.ok (), conf₁))
    (run₂ : (mergeAttributes target [] t.attributes).apply conf₁ = (.ok (), conf₂)) :
    Mergeable rules source conf₂ target t ∧ KeepsChildren target conf conf₂ := by
  obtain ⟨d, hd, sec⟩ := h.live
  have good : ∀ a ∈ t.attributes, GoodName a.name := by
    obtain ⟨_, _, _, _, _⟩ := t
    exact (h.taken.named wfs).2.1
  obtain ⟨conf₁', conf₂', run₁', run₂', confined, shape, -⟩ :=
    mergeOwn_spec t h.wellFormed h.writable hd sec good
  rw [run₁] at run₁'
  cases run₁'
  rw [run₂] at run₂'
  cases run₂'
  obtain ⟨d₂, h₂, kind, -⟩ := confined.kept d hd
  refine ⟨⟨confined.wellFormed, confined.readOnly.trans h.writable, ⟨d₂, h₂, kind.trans sec⟩,
    h.taken, h.wellKeyed, ?_, h.literal'⟩, ?_⟩
  · rw [shape]
    exact h.literal.lay h.literal'
  · have keeps := keepsChildren_mergeOwn h.wellFormed hd t.value t.attributes
    rw [apply_bind_ok run₁, run₂] at keeps
    exact keeps

end

namespace MergeableAll

/-- What pairs with a later section does not pair with the first one. -/
lemma not_pairs (h : MergeableAll rules source conf target done (t :: ts)) {b x : Shape}
    (hx : x ∈ done ∨ x ∈ Subtree.shapes ts) (pairs : b.pairs rules.keyName x = true) :
    b.pairs rules.keyName t.shape = false := by
  obtain ⟨wellKeyed, -, apart⟩ := h.siblings
  rw [Subtree.shapes] at wellKeyed apart
  have ht := wellKeyed t.shape (by simp)
  rcases hx with hx | hx
  · exact (wellKeyed x (by simp [hx])).not_pairs ht
      ((List.pairwise_append.1 apart).2.2 x hx _ (by simp)) pairs
  · exact (wellKeyed x (by simp [hx])).not_pairs ht
      ((List.pairwise_cons.1 (List.pairwise_append.1 apart).2.1).1 x hx).symm pairs

section

variable (wfs : source.WellFormed) (appends : rules.appends = false)
  (h : MergeableAll rules source conf target done (t :: ts))

include wfs appends h

/-- The first section is paired with the first child section that pairs with it. -/
lemma matchOf_eq (hd : conf.live? target = some d) :
    conf.matchOf process rules source target t.id t.name =
      .ok ((d.entries .sectionKind).find? fun c => (conf.shape c).pairs rules.keyName t.shape) := by
  exact (h.taken t List.mem_cons_self).matchOf process h.wellFormed wfs appends hd
    h.literal.children (literal_iff.1 (h.siblings.literal t.shape (by simp [Subtree.shapes]))).1

/-- A section that is paired can be merged into its counterpart. -/
lemma paired (found : conf.matchOf process rules source target t.id t.name = .ok (some child)) :
    child ∈ conf.childrenOf target ∧ (conf.shape child).pairs rules.keyName t.shape = true ∧
      Mergeable rules source conf child t := by
  obtain ⟨d, hd, sec⟩ := h.live
  have hm := mem_of_matchOf found
  rw [h.matchOf_eq wfs appends hd] at found
  have pairs := List.find?_some (Except.ok.inj found)
  refine ⟨hm, pairs, h.wellFormed, h.writable, ?_, h.taken t List.mem_cons_self,
    h.siblings.wellKeyed _ (by simp [Subtree.shapes]), ?_,
    h.siblings.literal _ (by simp [Subtree.shapes])⟩
  all_goals rw [childrenOf_eq hd] at hm
  · obtain ⟨e, live, kind, -⟩ := h.wellFormed.listed target d _ child hd hm
    exact ⟨e, live, kind⟩
  · refine (literal_iff.1 h.literal).2 _ ?_
    rw [shape_eq h.wellFormed hd]
    exact List.mem_map_of_mem hm

/-- A child section that does not pair with the first section is as before after it. -/
lemma spares {out : Except ConfigError Unit}
    (run : (mergeNext process rules source target t).apply conf = (out, conf₁)) {y : Nat}
    (hy : y ∈ conf.childrenOf target)
    (other : (conf.shape y).pairs rules.keyName t.shape = false) :
    SameBelow y conf conf₁ ∧ y ∈ conf₁.childrenOf target := by
  obtain ⟨d, hd, sec⟩ := h.live
  refine sameBelow_mergeNext ((h.taken t List.mem_cons_self).named wfs) h.wellFormed h.writable hd
    sec run hy fun found => ?_
  rw [(h.paired wfs appends found).2.1] at other
  cases other

/-- The counterpart of the first section still pairs with it after the merge. -/
lemma merged (found : conf.matchOf process rules source target t.id t.name = .ok (some child))
    (run : (mergeSection process rules source child t).apply conf = (.ok (), conf₁)) :
    MergedAll rules target (done ++ [t.shape]) conf conf₁ ∧ child ∈ conf₁.childrenOf target ∧
      (conf₁.shape child).pairs rules.keyName t.shape = true := by
  obtain ⟨d, hd, sec⟩ := h.live
  obtain ⟨hm, pairs, inner⟩ := h.paired wfs appends found
  obtain ⟨e, he, kind⟩ := inner.live
  have now := h.siblings
  rw [Subtree.shapes, List.append_cons] at now
  have merged := mergeSection_absorbs process wfs appends t inner.taken inner.wellKeyed
    inner.literal' inner.wellFormed inner.writable he kind inner.literal run
  rw [h.matchOf_eq wfs appends hd] at found
  refine ⟨merged.all h.wellFormed hd h.literal now.left h.absorbs (Except.ok.inj found), ?_,
    merged.pairs pairs⟩
  rw [childrenOf_eq hd] at hm
  rw [childrenOf_eq (merged.confined.live_parent h.wellFormed hd hm)]
  exact hm

/-- One section more is done. Its counterpart is among the child sections, and all others are as
before. -/
lemma step (run : (mergeNext process rules source target t).apply conf = (.ok (), conf₁)) :
    MergeableAll rules source conf₁ target (done ++ [t.shape]) ts ∧
      ∀ y ∈ conf₁.childrenOf target, (conf₁.shape y).pairs rules.keyName t.shape = true ∨
        y ∈ conf.childrenOf target ∧ SameBelow y conf conf₁ := by
  obtain ⟨d, hd, sec⟩ := h.live
  have wf := h.wellFormed
  have named := (h.taken t List.mem_cons_self).named wfs
  have now := h.siblings
  rw [Subtree.shapes, List.append_cons] at now
  have state : ∀ {conf₁}, MergedAll rules target (done ++ [t.shape]) conf conf₁ →
      MergeableAll rules source conf₁ target (done ++ [t.shape]) ts := by
    intro conf₁ all
    obtain ⟨d₁, h₁, kind, -⟩ := all.confined.kept d hd
    exact ⟨all.confined.wellFormed, all.confined.readOnly.trans h.writable,
      ⟨d₁, h₁, kind.trans sec⟩, fun x hx => h.taken x (List.mem_cons_of_mem _ hx), now,
      all.literal, all.absorbs⟩
  cases of_mergeNext named wf h.writable hd sec run with
  | @merged c _ _ found hc run =>
    obtain ⟨all, -, pairs⟩ := h.merged wfs appends found run
    refine ⟨state all, fun y hy => ?_⟩
    obtain ⟨-, -, inner⟩ := h.paired wfs appends found
    obtain ⟨e, he, kind⟩ := inner.live
    have confined := confined_mergeSection process rules source t named wf
      h.writable he kind
    rw [run] at confined
    rw [childrenOf_eq hd] at hc
    rw [childrenOf_eq (confined.live_parent wf hd hc)] at hy
    by_cases hne : y = c
    · rw [hne]
      exact .inl pairs
    · rw [childrenOf_eq hd]
      exact .inr ⟨hy, confined.sameBelow wf hd hc hy hne⟩
  | copied found confined appended shape =>
    rw [h.matchOf_eq wfs appends hd] at found
    refine ⟨state (mergedAll_of_copied wf hd h.literal now.left h.absorbs confined shape
      (Except.ok.inj found)), fun y hy => ?_⟩
    rcases appended.of_child wf confined.wellFormed hd shape hy with old | new
    · right
      refine ⟨old, ?_⟩
      rw [childrenOf_eq hd] at old
      exact appended.sameBelow wf hd old
    · left
      rw [new]
      exact (now.left.wellKeyed _ (by simp)).pairs_self

end

variable (process) in
/-- What pairs with a section that is done is left alone by the rest. -/
lemma keeps_done (wfs : source.WellFormed) (appends : rules.appends = false)
    (h : MergeableAll rules source conf target done ts) {x : Shape} (hx : x ∈ done) {y : Nat}
    (hy : y ∈ conf.childrenOf target) (pairs : (conf.shape y).pairs rules.keyName x = true) :
    SameBelow y conf ((mergeSections process rules source target ts).apply conf).2 := by
  induction ts generalizing conf done with
  | nil => exact .refl
  | cons t ts ih =>
    have other := h.not_pairs (.inl hx) pairs
    rw [mergeSections_cons]
    refine after_bind (fun _ _ run => (h.spares wfs appends run hy other).1) fun _ conf₁ run => ?_
    obtain ⟨same, hy'⟩ := h.spares wfs appends run hy other
    obtain ⟨h₁, -⟩ := h.step wfs appends run
    obtain ⟨d, hd, -⟩ := h.live
    rw [childrenOf_eq hd] at hy
    obtain ⟨e, live, -⟩ := h.wellFormed.listed target d _ y hd hy
    have shape := same.shape_eq h.wellFormed h₁.wellFormed live
    exact same.trans (ih h₁ (List.mem_append_left _ hx) hy' (by rw [shape, pairs]))

end MergeableAll

/-! ## Before and after -/

mutual

/-- When a section is met, all below it is as it was before the merge. -/
lemma Meets.before (wfs : source.WellFormed) (appends : rules.appends = false) :
    ∀ {t : Subtree} {conf : Configuration} {target : Nat},
    Mergeable rules source conf target t → Meets process rules source conf target t mid s u →
    conf.Below target s ∧ SameBelow s conf mid ∧ Mergeable rules source mid s u
  | .mk .., conf, target, h, meets => by
    obtain ⟨d, hd, -⟩ := h.live
    have up : ∀ {c}, c ∈ conf.childrenOf target → conf.Below c s → conf.Below target s := by
      intro c hc below
      rw [childrenOf_eq hd] at hc
      exact (Below.of_mem_entries h.wellFormed hd hc).trans below
    cases meets with
    | self => exact ⟨.self, .refl, h⟩
    | sections _ among =>
      obtain ⟨c, hc, below, -, same, inner⟩ := among.before wfs appends (h.all wfs)
      exact ⟨up hc below, same, inner⟩
    | all _ run₁ run₂ among =>
      obtain ⟨h₂, keeps⟩ := h.own wfs run₁ run₂
      obtain ⟨c, hc, below, -, same, inner⟩ := among.before wfs appends (h₂.all wfs)
      rw [keeps.children] at hc
      have first := keeps.same c hc
      have below' := (first.below_iff h.wellFormed h₂.wellFormed).1 below
      exact ⟨up hc below', (first.of_below below').trans same, inner⟩

/-- The section that is met lies below a child section that pairs with one that is to be merged. -/
lemma MeetsAmong.before (wfs : source.WellFormed) (appends : rules.appends = false) :
    ∀ {ts : List Subtree} {conf : Configuration} {target : Nat} {done : List Shape},
    MergeableAll rules source conf target done ts →
    MeetsAmong process rules source conf target ts mid s u →
    ∃ c ∈ conf.childrenOf target, conf.Below c s ∧
      (∃ x ∈ Subtree.shapes ts, (conf.shape c).pairs rules.keyName x = true) ∧
      SameBelow s conf mid ∧ Mergeable rules source mid s u
  | [], _, _, _, _, among => nomatch among
  | t :: ts, conf, target, done, h, among => by
    cases among with
    | first found meets =>
      obtain ⟨hc, pairs, inner⟩ := h.paired wfs appends found
      obtain ⟨below, same, inner⟩ := meets.before wfs appends inner
      exact ⟨_, hc, below, ⟨t.shape, List.mem_cons_self, pairs⟩, same, inner⟩
    | next run among =>
      obtain ⟨h₁, children⟩ := h.step wfs appends run
      obtain ⟨c, hc, below, ⟨x, hx, pairs⟩, same, inner⟩ := among.before wfs appends h₁
      -- What pairs with a later section was left alone.
      rcases children c hc with pairs' | ⟨old, first⟩
      · rw [h.not_pairs (.inr hx) pairs] at pairs'
        cases pairs'
      · have below' := (first.below_iff h.wellFormed h₁.wellFormed).1 below
        obtain ⟨d, hd, -⟩ := h.live
        have hm := old
        rw [childrenOf_eq hd] at hm
        obtain ⟨e, live, -⟩ := h.wellFormed.listed target d _ c hd hm
        rw [first.shape_eq h.wellFormed h₁.wellFormed live] at pairs
        exact ⟨c, old, below', ⟨x, List.mem_cons_of_mem _ hx, pairs⟩,
          (first.of_below below').trans same, inner⟩

end

mutual

/-- What a merge leaves at a section that it meets is there in the end, and what is dead by then
stays dead. -/
lemma Meets.after (wfs : source.WellFormed) (appends : rules.appends = false) :
    ∀ {t : Subtree} {conf : Configuration} {target : Nat},
    Mergeable rules source conf target t → Meets process rules source conf target t mid s u →
    SameBelow s ((mergeSection process rules source s u).apply mid).2
        ((mergeSection process rules source target t).apply conf).2 ∧
      ((mergeSection process rules source s u).apply mid).2.Evolves
        ((mergeSection process rules source target t).apply conf).2
  | .mk .., conf, target, h, meets => by
    cases meets with
    | self => exact ⟨.refl, .refl _⟩
    | sections policy among =>
      rw [apply_mergeSection_sections policy]
      exact among.after wfs appends (h.all wfs)
    | all policy run₁ run₂ among =>
      rw [apply_mergeSection_all policy run₁ run₂]
      exact among.after wfs appends ((h.own wfs run₁ run₂).1.all wfs)

/-- What a meeting leaves below its section is left there in the end. -/
lemma MeetsAmong.after (wfs : source.WellFormed) (appends : rules.appends = false) :
    ∀ {ts : List Subtree} {conf : Configuration} {target : Nat} {done : List Shape},
    MergeableAll rules source conf target done ts →
    MeetsAmong process rules source conf target ts mid s u →
    SameBelow s ((mergeSection process rules source s u).apply mid).2
        ((mergeSections process rules source target ts).apply conf).2 ∧
      ((mergeSection process rules source s u).apply mid).2.Evolves
        ((mergeSections process rules source target ts).apply conf).2
  | [], _, _, _, _, among => nomatch among
  | t :: ts, conf, target, done, h, among => by
    rw [mergeSections_cons]
    cases among with
    | next run among =>
      rw [apply_bind_ok run]
      exact among.after wfs appends (h.step wfs appends run).1
    | @first _ _ _ child _ _ _ _ found meets =>
      obtain ⟨-, -, inner⟩ := h.paired wfs appends found
      have now := meets.after wfs appends inner
      obtain ⟨below, -, met⟩ := meets.before wfs appends inner
      refine after_bind (R := fun c => SameBelow s _ c ∧ Evolves _ c) (fun e conf₃ run => ?_)
        fun _ conf₃ run => ?_
      all_goals
        rw [apply_mergeNext_some found] at run
        rw [run] at now
      · exact now
      -- The rest leaves the counterpart alone.
      obtain ⟨-, hm, pairs⟩ := h.merged wfs appends found run
      have h₃ := (h.step wfs appends ((apply_mergeNext_some found).trans run)).1
      have same := h₃.keeps_done process wfs appends (by simp) hm pairs
      have evolves := Evolves.changes ((Makes.mergeSection process rules source child t).of_run run)
      obtain ⟨e, he, sec⟩ := met.live
      obtain ⟨f, hf, -⟩ := (confined_mergeSection process rules source u
        (met.taken.named wfs) met.wellFormed met.writable he sec).kept e he
      have below' := evolves.below h₃.wellFormed below ((now.1 s .self).trans hf)
      exact ⟨now.1.trans (same.of_below below'), now.2.trans
        (Evolves.changes (Makes.mergeSections process rules source target ts conf₃))⟩

end

/-! ## Sections that are not met -/

/-- A merge meets the section, or replaces one above it. -/
def Touched (process : Host) (rules : Rules) (source conf : Configuration) (target : Nat)
    (t : Subtree) (y : Nat) : Prop :=
  ∃ mid p u, Meets process rules source conf target t mid p u ∧ mid.Below p y ∧
    (p = y ∨ mid.policyOf process rules p = .ok .replace)

/-- The same of a merge of child sections. -/
def TouchedAmong (process : Host) (rules : Rules) (source conf : Configuration) (target : Nat)
    (ts : List Subtree) (y : Nat) : Prop :=
  ∃ mid p u, MeetsAmong process rules source conf target ts mid p u ∧ mid.Below p y ∧
    (p = y ∨ mid.policyOf process rules p = .ok .replace)

variable (process rules source) in
mutual

/-- A section that a merge does not touch keeps its value and its attributes. -/
lemma keepsOwn_or_touched : ∀ (t : Subtree) {conf : Configuration} {target y : Nat}
    {d e : NodeData}, t.Named → conf.WellFormed → conf.readOnly = false →
    conf.live? target = some d → d.kind = .sectionKind → conf.live? y = some e →
    e.kind = .sectionKind →
    KeepsOwn y conf ((mergeSection process rules source target t).apply conf).2 ∨
      Touched process rules source conf target t y
  | .mk id name value attributes children, conf, target, y, d, e, named, wf, writable, h, sec, live,
      kind => by
    have confined := confined_mergeSection process rules source _ named wf
      writable h sec
    by_cases here : y = target
    · rw [here]
      exact .inr ⟨conf, target, _, .self, .self, .inl rfl⟩
    by_cases below : conf.Below target y
    case neg => exact .inl (.of_confined wf confined h sec live below)
    obtain ⟨conf₁, conf₂, run₁, run₂, confined₂, -, -⟩ :=
      mergeOwn_spec (.mk id name value attributes children) wf writable h sec named.2.1
    rw [Subtree.value] at run₁
    rw [Subtree.attributes] at run₂
    have keeps := keepsChildren_mergeOwn wf h value attributes
    rw [apply_bind_ok run₁, run₂] at keeps
    have own : KeepsOwn y conf conf₂ := by
      obtain ⟨c, hc, hb⟩ := below.exists_child wf live kind here
      exact .of_sameBelow wf ((keeps.same c hc).of_below hb) live
    cases policy : conf.policyOf process rules target with
    | error e =>
      rw [mergeSection, apply_bind, apply_look, policy]
      exact .inl .refl
    | ok p =>
      cases p with
      | stop =>
        rw [mergeSection, apply_bind, apply_look, policy]
        exact .inl .refl
      | fail =>
        rw [mergeSection, apply_bind, apply_look, policy]
        dsimp only
        rw [apply_look]
        exact .inl .refl
      | replace => exact .inr ⟨conf, target, _, .self, below, .inr policy⟩
      | attributes =>
        rw [mergeSection, apply_bind, apply_look, policy]
        dsimp only
        rw [apply_bind_ok run₁, run₂]
        exact .inl own
      | sections =>
        rw [apply_mergeSection_sections policy]
        exact (keepsOwn_or_touchedAmong children named.2.2 wf writable h sec live kind
          here).imp_right fun ⟨mid, p, u, among, rest⟩ => ⟨mid, p, u, .sections policy among, rest⟩
      | all =>
        rw [apply_mergeSection_all policy run₁ run₂]
        obtain ⟨d₂, h₂, kind₂, -⟩ := confined₂.kept d h
        obtain ⟨e₂, live₂, same⟩ := own.live e live
        refine (keepsOwn_or_touchedAmong children named.2.2 confined₂.wellFormed
          (confined₂.readOnly.trans writable) h₂ (kind₂.trans sec) live₂ (same.trans kind) here).imp
          own.trans fun ⟨mid, p, u, among, rest⟩ => ⟨mid, p, u, .all policy run₁ run₂ among, rest⟩

/-- A section keeps its own, or one of the sections touches it. -/
lemma keepsOwn_or_touchedAmong : ∀ (ts : List Subtree) {conf : Configuration} {target y : Nat}
    {d e : NodeData}, Subtree.AllNamed ts → conf.WellFormed → conf.readOnly = false →
    conf.live? target = some d → d.kind = .sectionKind → conf.live? y = some e →
    e.kind = .sectionKind → y ≠ target →
    KeepsOwn y conf ((mergeSections process rules source target ts).apply conf).2 ∨
      TouchedAmong process rules source conf target ts y
  | [], conf, target, y, d, e, _, _, _, _, _, _, _, _ => .inl .refl
  | t :: ts, conf, target, y, d, e, named, wf, writable, h, sec, live, kind, hne => by
    have first : ∀ {out conf₁},
        (mergeNext process rules source target t).apply conf = (out, conf₁) →
        KeepsOwn y conf conf₁ ∨ TouchedAmong process rules source conf target (t :: ts) y := by
      intro out conf₁ run
      cases of_mergeNext named.1 wf writable h sec run with
      | unpaired => exact .inl .refl
      | merged found hc run =>
        rw [childrenOf_eq h] at hc
        obtain ⟨ce, hce, ck, -⟩ := wf.listed target d _ _ h hc
        have inner := keepsOwn_or_touched t named.1 wf writable hce ck live kind
        rw [run] at inner
        exact inner.imp_right fun ⟨mid, p, u, meets, rest⟩ => ⟨mid, p, u, .first found meets, rest⟩
      | copied _ _ appended => exact .inl (appended.keepsOwn_of_ne wf h sec live hne)
    rw [mergeSections_cons]
    refine after_bind
      (R := fun c => KeepsOwn y conf c ∨ TouchedAmong process rules source conf target (t :: ts) y)
      (fun _ _ run => first run) fun _ conf₁ run => ?_
    rcases first run with own | touched
    · have confined := confined_mergeNext named.1 wf writable h sec run
      obtain ⟨d₁, h₁, kind₁, -⟩ := confined.kept d h
      obtain ⟨e₁, live₁, same⟩ := own.live e live
      exact (keepsOwn_or_touchedAmong ts named.2 confined.wellFormed
        (confined.readOnly.trans writable) h₁ (kind₁.trans sec) live₁ (same.trans kind) hne).imp
        own.trans fun ⟨mid, p, u, among, rest⟩ => ⟨mid, p, u, .next run among, rest⟩
    · exact .inr touched

end

end ConfTree.Edit
