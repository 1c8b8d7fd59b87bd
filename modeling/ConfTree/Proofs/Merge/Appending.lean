import ConfTree.Proofs.Merge.Calls
import ConfTree.Proofs.Operation.Reachable

/-!
# Appending merges

By rules that append, a section of the source without the match attribute is paired with nothing,
neither with a section of the target nor with the copy of one before it. So it is copied behind the
child sections that are there, and nothing below these changes (`CopiesAppended`). The main
statement, `overrideBy_appending`, is that a merge of a configuration without such attributes below
its root appends a copy of each child section of the root, in order.
-/

namespace ConfTree

open ConfTree.Configuration

variable {process : Host} {rules : Rules} {source a b conf conf' conf'' : Configuration}
  {target : Nat} {t : Subtree} {d : NodeData} {shapes shapes' : List Shape}

/-- All below the child sections of the target is as it was, and behind them there are new ones of
the given shapes. -/
structure CopiesAppended (target : Nat) (shapes : List Shape) (before after : Configuration) :
    Prop where
  size : before.nodes.size ≤ after.nodes.size
  /-- No child section differs in anything below it, the marks of its nodes included. -/
  same : ∀ c ∈ before.childrenOf target, SameBelow c before after
  copies : ∃ copies, after.childrenOf target = before.childrenOf target ++ copies ∧
    copies.map after.shape = shapes ∧ ∀ c ∈ copies, before.nodes.size ≤ c

namespace CopiesAppended

/-- Nothing is appended to begin with. -/
lemma refl : CopiesAppended target [] conf conf :=
  ⟨Nat.le_refl _, fun _ _ => .refl, [], by simp, rfl, nofun⟩

/-- Copies are appended behind earlier ones. -/
lemma trans (wf' : conf'.WellFormed) (wf'' : conf''.WellFormed)
    (first : CopiesAppended target shapes conf conf')
    (second : CopiesAppended target shapes' conf' conf'') :
    CopiesAppended target (shapes ++ shapes') conf conf'' := by
  obtain ⟨copies, children, shape, fresh⟩ := first.copies
  obtain ⟨copies', children', shape', fresh'⟩ := second.copies
  have size := first.size
  have kept : ∀ c ∈ conf'.childrenOf target, conf''.shape c = conf'.shape c := by
    intro c hc
    have same := second.same c hc
    cases h : conf'.live? target with
    | none =>
      rw [childrenOf, h] at hc
      cases hc
    | some d =>
      rw [childrenOf_eq h] at hc
      obtain ⟨e, live, -⟩ := wf'.listed target d _ c h hc
      exact same.shape_eq wf' wf'' live
  refine ⟨size.trans second.size, fun c hc => ?_, copies ++ copies', ?_, ?_, fun c hc => ?_⟩
  · refine (first.same c hc).trans (second.same c ?_)
    rw [children]
    exact List.mem_append_left _ hc
  · rw [children', children, List.append_assoc]
  · rw [List.map_append, shape', ← shape]
    congr 1
    refine List.map_congr_left fun c hc => kept c ?_
    rw [children]
    exact List.mem_append_right _ hc
  · rcases List.mem_append.1 hc with hc | hc
    · exact fresh c hc
    · exact size.trans (fresh' c hc)

/-- What comes before in the section does not matter if it leaves the child sections. -/
lemma of_keepsChildren (size : conf.nodes.size ≤ conf'.nodes.size)
    (keeps : KeepsChildren target conf conf') (rest : CopiesAppended target shapes conf' conf'') :
    CopiesAppended target shapes conf conf'' := by
  obtain ⟨copies, children, shape, fresh⟩ := rest.copies
  rw [keeps.children] at children
  refine ⟨size.trans rest.size, fun c hc => ?_, copies, children, shape,
    fun c hc => size.trans (fresh c hc)⟩
  exact (keeps.same c hc).trans (rest.same c (keeps.children ▸ hc))

end CopiesAppended

/-- To append copies to a section leaves its child sections, and puts the copies behind them. -/
lemma Configuration.Appended.copiesAppended (wf : conf.WellFormed) (wf' : conf'.WellFormed)
    (appended : Appended target conf conf') (h : conf.live? target = some d)
    (shape : conf'.shape target = (conf.shape target).extend [] shapes) :
    CopiesAppended target shapes conf conf' := by
  obtain ⟨copies, children, lists⟩ := appended.exists_copies wf wf' h shape
  refine ⟨appended.size, fun c hc => ?_, copies, children, lists, fun c hc => ?_⟩
  · rw [childrenOf_eq h] at hc
    exact appended.sameBelow wf h hc
  · obtain ⟨e, he, -⟩ := appended.own d h
    have distinct := wf'.nodup_entries he .sectionKind
    rw [← childrenOf_eq he, children] at distinct
    by_contra old
    -- An old child section would be listed twice.
    have before := appended.old_child wf wf' h (children ▸ List.mem_append_right _ hc)
      (Nat.lt_of_not_le old)
    exact (List.nodup_append.1 distinct).2.2 c before c hc rfl

namespace Edit

variable (process) in
/-- A section of the source without the match attribute is copied behind the child sections. -/
lemma mergeNext_appends (wf : conf.WellFormed) (writable : conf.readOnly = false)
    (h : conf.live? target = some d) (sec : d.kind = .sectionKind) (appends : rules.appends = true)
    (named : t.Named) (keyless : source.attribute? t.id rules.matchAttribute = none) :
    ∃ conf', (mergeNext process rules source target t).apply conf = (.ok (), conf') ∧
      Confined target conf conf' ∧ CopiesAppended target [t.shape] conf conf' := by
  have unpaired : conf.matchOf process rules source target t.id t.name = .ok none := by
    simp [matchOf, keyless, appends]
  obtain ⟨conf', copy, confined, shape⟩ := copySubtree_spec wf writable h sec named
  have appended := appended_copySubtree h t
  rw [copy] at appended
  refine ⟨conf', ?_, confined, appended.copiesAppended wf confined.wellFormed h shape⟩
  rw [apply_mergeNext_none unpaired, apply_bind_ok copy]
  rfl

variable (process) in
/-- Sections of the source without the match attribute are copied in order, whatever they are
called. -/
lemma mergeSections_appends {ts : List Subtree} (wf : conf.WellFormed)
    (writable : conf.readOnly = false) (h : conf.live? target = some d)
    (sec : d.kind = .sectionKind) (appends : rules.appends = true) (named : ∀ t ∈ ts, t.Named)
    (keyless : ∀ t ∈ ts, source.attribute? t.id rules.matchAttribute = none) :
    ∃ conf', (mergeSections process rules source target ts).apply conf = (.ok (), conf') ∧
      Confined target conf conf' ∧ CopiesAppended target (ts.map Subtree.shape) conf conf' := by
  induction ts generalizing conf d with
  | nil => exact ⟨conf, by rw [mergeSections]; rfl, .refl wf, .refl⟩
  | cons t ts ih =>
    obtain ⟨conf₁, run₁, confined₁, first⟩ := mergeNext_appends process wf writable h
      sec appends (named t List.mem_cons_self) (keyless t List.mem_cons_self)
    obtain ⟨d₁, h₁, kind, -⟩ := confined₁.kept d h
    obtain ⟨conf₂, run₂, confined₂, rest⟩ := ih confined₁.wellFormed
      (confined₁.readOnly.trans writable) h₁ (kind.trans sec)
      (fun t ht => named t (List.mem_cons_of_mem _ ht))
      (fun t ht => keyless t (List.mem_cons_of_mem _ ht))
    refine ⟨conf₂, ?_, confined₁.trans wf confined₂,
      first.trans confined₁.wellFormed confined₂.wellFormed rest⟩
    rw [mergeSections_cons, apply_bind_ok run₁, run₂]

variable (process) in
/-- A section that is merged into one without a policy has its child sections copied. -/
lemma mergeSection_appends (wf : conf.WellFormed) (writable : conf.readOnly = false)
    (h : conf.live? target = some d) (sec : d.kind = .sectionKind)
    (undeclared : conf.attribute? target rules.policyAttribute = none)
    (appends : rules.appends = true) (named : t.Named)
    (keyless : ∀ c ∈ t.children, source.attribute? c.id rules.matchAttribute = none) :
    ∃ conf', (mergeSection process rules source target t).apply conf = (.ok (), conf') ∧
      conf'.WellFormed ∧ CopiesAppended target (t.children.map Subtree.shape) conf conf' := by
  obtain ⟨id, name, value, attributes, children⟩ := t
  obtain ⟨-, good, goodChildren⟩ := named
  have policy : conf.policyOf process rules target = .ok .all := by
    rw [policyOf, undeclared]
    rfl
  -- The value and the attributes come first, and leave the child sections.
  obtain ⟨conf₁, conf₂, run₁, run₂, confined, -⟩ :=
    mergeOwn_spec (.mk id name value attributes children) wf writable h sec good
  rw [Subtree.value] at run₁
  rw [Subtree.attributes] at run₂
  have keeps := keepsChildren_mergeOwn wf h value attributes
  have steps := ((Makes.mergeValue target value).of_run run₁).trans
    ((Makes.mergeAttributes target [] attributes).of_run run₂)
  rw [apply_bind_ok run₁, run₂] at keeps
  obtain ⟨d₂, h₂, kind, -⟩ := confined.kept d h
  obtain ⟨conf₃, run₃, confined₃, rest⟩ := mergeSections_appends process
    confined.wellFormed (confined.readOnly.trans writable) h₂ (kind.trans sec) appends
    (fun c => goodChildren.of_mem) keyless
  refine ⟨conf₃, ?_, confined₃.wellFormed,
    .of_keepsChildren (Evolves.changes steps).size_le keeps rest⟩
  rw [apply_mergeSection_all policy run₁ run₂, run₃]

end Edit

/-- By rules that append, a merge of a configuration without match attributes below its root leaves
the child sections of the root as they are, and behind them it appends a copy of each child section
of the other root in order. -/
theorem overrideBy_appending (reach : Reachable a) (reach' : Reachable b)
    (writable : a.readOnly = false) (undeclared : a.attribute? root rules.policyAttribute = none)
    (appends : rules.appends = true)
    (keyless : ∀ c ∈ b.childrenOf root, b.attribute? c rules.matchAttribute = none)
    (process : Host) :
    ∃ after copies, (Edit.overrideBy process rules b).apply a = (.ok (), after) ∧
      (∀ c ∈ a.childrenOf root, ∀ id, a.Below c id → after.live? id = a.live? id) ∧
      after.childrenOf root = a.childrenOf root ++ copies ∧
      copies.map after.shape = (b.childrenOf root).map b.shape ∧
      ∀ c ∈ copies, ∀ id, after.Below c id → a.nodes.size ≤ id := by
  have wf := reach.wellFormed
  have wfb := reach'.wellFormed
  obtain ⟨d, h, sec, -⟩ := wf.root
  obtain ⟨e, live, sec', -⟩ := wfb.root
  have taken := takenFrom_subtree live sec'
  have children : (b.subtree root).children = (b.childrenOf root).map b.subtree := by
    rw [subtree_eq wfb live, childrenOf_eq live]
    rfl
  have keyless' : ∀ c ∈ (b.subtree root).children,
      b.attribute? c.id rules.matchAttribute = none := by
    intro c hc
    rw [children] at hc
    obtain ⟨x, hx, rfl⟩ := List.mem_map.1 hc
    rw [id_subtree]
    exact keyless x hx
  obtain ⟨after, run, wf', appended⟩ := Edit.mergeSection_appends process wf writable h
    sec undeclared appends (taken.named wfb) keyless'
  obtain ⟨copies, listed, shapes, fresh⟩ := appended.copies
  refine ⟨after, copies, ?_, appended.same, listed, ?_, fun c hc id below => ?_⟩
  · rw [overrideBy_apply process wfb h sec, run]
  · rw [shapes, children, List.map_map]
    rfl
  · exact (fresh c hc).trans (below.le wf')

/-- A section that stops merges and one that is called like it, both below the target, and sections
of their name in the source, one of which declares a policy and holds a match attribute deeper. -/
theorem overrideBy_appending_sample :
    let a := (withRoot "base").operateAll
      [(.bare, .addSection 0 "s" none), (.bare, .addAttribute 1 "_override" (some "stop")),
        (.bare, .addSection 0 "S" (some "1"))]
    let b := (withRoot "local").operateAll
      [(.bare, .addSection 0 "s" (some "2")), (.bare, .addAttribute 1 "_override" (some "fail")),
        (.bare, .addSection 1 "t" none), (.bare, .addAttribute 3 "name" (some "x")),
        (.bare, .addSection 0 "s" none), (.bare, .addAttribute 0 "_override" (some "stop"))]
    ∃ after copies, (Edit.overrideBy .bare ⟨true, "name", "_override"⟩ b).apply a =
      (.ok (), after) ∧
      (∀ c ∈ a.childrenOf root, ∀ id, a.Below c id → after.live? id = a.live? id) ∧
      after.childrenOf root = a.childrenOf root ++ copies ∧
      copies.map after.shape = (b.childrenOf root).map b.shape ∧
      ∀ c ∈ copies, ∀ id, after.Below c id → a.nodes.size ≤ id := by
  intro a b
  have reach : Reachable a := (Reachable.withRoot "base").operateAll _ (by simp [Operation.others])
  have reach' : Reachable b :=
    (Reachable.withRoot "local").operateAll _ (by simp [Operation.others])
  exact overrideBy_appending reach reach' (by decide +kernel) (by decide +kernel) rfl
    (by decide +kernel) .bare

end ConfTree
