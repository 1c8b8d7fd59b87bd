import ConfTree.Proofs.Merge.Absorbed
import ConfTree.Proofs.Merge.Refinement
import ConfTree.Proofs.Operation.Reachable

/-!
# Merging a layer again

A merge that succeeds leaves a section behind that absorbs the merged one (`mergeSection_absorbs`),
and a merge of a section that is absorbed changes nothing (`mergeSection_absorbed`). So a layer that
was merged can be merged again without a change (`overrideBy_again`).
-/

namespace ConfTree

open ConfTree.Configuration ConfTree.Text

variable {process : Host} {rules : Rules} {source conf conf' : Configuration} {target : Nat}
  {d : NodeData} {t : Subtree}

/-! ## What a merge of literal sections looks at -/

namespace Edit

/-- The policy that a literal section declares is looked up. -/
lemma look_policyOf (process : Host) (wf : conf.WellFormed) (h : conf.live? target = some d)
    (literal : Literal rules (conf.shape target)) {policy : Policy}
    (declared : (conf.shape target).policy? rules = some policy) :
    (look (·.policyOf process rules target)).apply conf = (.ok policy, conf) := by
  rw [apply_look, (policyOf_literal process wf h (literal_iff.1 literal).1).2 declared]

/-! ## Merging what is absorbed -/

variable (process) in
mutual

/-- A merge of a section that is absorbed changes nothing. -/
lemma mergeSection_absorbed (wf : conf.WellFormed) (wfs : source.WellFormed)
    (writable : conf.readOnly = false) (appends : rules.appends = false) :
    ∀ (t : Subtree) {target : Nat} {d : NodeData}, TakenFrom source t → Literal rules t.shape →
      conf.live? target = some d → d.kind = .sectionKind → Literal rules (conf.shape target) →
      Absorbs rules (conf.shape target) t.shape →
      (mergeSection process rules source target t).apply conf = (.ok (), conf)
  | .mk id name value attributes children, target, d, taken, literal', h, sec, literal,
    absorbs => by
    obtain ⟨-, good, -⟩ := taken.named wfs
    obtain ⟨conf₁, conf₂, run₁, run₂, -, -, keep⟩ :=
      mergeOwn_spec (.mk id name value attributes children) wf writable h sec good
    have rest : AbsorbsAll rules (conf.shape target).children (Subtree.shapes children) →
        (mergeSections process rules source target children).apply conf = (.ok (), conf) :=
      mergeSections_absorbed wf wfs writable appends children (taken.child wfs)
        (literal_iff.1 literal').2 h sec literal
    rw [mergeSection]
    cases absorbs with
    | all declared held all =>
      rw [keep held] at run₂
      rw [apply_bind_ok (look_policyOf process wf h literal declared)]
      exact (apply_bind_ok run₁).trans ((apply_bind_ok run₂).trans (rest all))
    | attributes declared held =>
      rw [keep held] at run₂
      rw [apply_bind_ok (look_policyOf process wf h literal declared)]
      exact (apply_bind_ok run₁).trans run₂
    | sections declared all =>
      rw [apply_bind_ok (look_policyOf process wf h literal declared)]
      exact rest all
    | stop declared =>
      rw [apply_bind_ok (look_policyOf process wf h literal declared)]
      rfl

/-- A merge of sections that are absorbed changes nothing. -/
lemma mergeSections_absorbed (wf : conf.WellFormed) (wfs : source.WellFormed)
    (writable : conf.readOnly = false) (appends : rules.appends = false) :
    ∀ (ts : List Subtree) {target : Nat} {d : NodeData}, (∀ t ∈ ts, TakenFrom source t) →
      (∀ c ∈ Subtree.shapes ts, Literal rules c) → conf.live? target = some d →
      d.kind = .sectionKind → Literal rules (conf.shape target) →
      AbsorbsAll rules (conf.shape target).children (Subtree.shapes ts) →
      (mergeSections process rules source target ts).apply conf = (.ok (), conf)
  | [], target, d, _, _, _, _, _, _ => by
    rw [mergeSections]
    rfl
  | t :: ts, target, d, taken, literal', h, sec, literal, absorbs => by
    have looked := look_matchOf process wf wfs appends h (taken t List.mem_cons_self)
      literal.children (literal_iff.1 (literal' _ List.mem_cons_self)).1
    have children : (conf.shape target).children = (d.entries .sectionKind).map conf.shape := by
      rw [shape_eq wf h]
      rfl
    have rest := mergeSections_absorbed wf wfs writable appends ts
      (fun x hx => taken x (List.mem_cons_of_mem _ hx))
      (fun c hc => literal' c (List.mem_cons_of_mem _ hc)) h sec literal
    cases absorbs with
    | cons found absorbs all =>
      -- The section is paired with the one that absorbs it.
      rw [children, List.find?_map, Option.map_eq_some_iff] at found
      obtain ⟨c, found, rfl⟩ := found
      have hm := List.mem_of_find?_eq_some found
      obtain ⟨e, live, kind, -⟩ := wf.listed target d _ c h hm
      have inside : Literal rules (conf.shape c) :=
        (literal_iff.1 literal).2 _ (by rw [children]; exact List.mem_map_of_mem hm)
      have first := mergeSection_absorbed wf wfs writable appends t (taken t List.mem_cons_self)
        (literal' _ List.mem_cons_self) live kind inside absorbs
      have looked' : (look fun conf => conf.matchOf process rules source target t.id t.name).apply
          conf = (.ok (some c), conf) :=
        looked.trans (congrArg (fun o => (Except.ok o, conf)) found)
      rw [mergeSections, apply_bind_ok looked']
      exact (apply_bind_ok first).trans (rest all)

end

/-! ## What a merge leaves behind -/

/-- The target and the configuration are what they can be after a merge of a section. -/
structure Merged (rules : Rules) (target : Nat) (t : Shape) (conf conf' : Configuration) :
    Prop where
  confined : Confined target conf conf'
  literal : Literal rules (conf'.shape target)
  absorbs : Absorbs rules (conf'.shape target) t
  /-- If the sections could be paired, they still can. -/
  pairs : (conf.shape target).pairs rules.keyName t = true →
    (conf'.shape target).pairs rules.keyName t = true

/-- The same after a merge of child sections. -/
structure MergedAll (rules : Rules) (target : Nat) (ts : List Shape) (conf conf' : Configuration) :
    Prop where
  confined : Confined target conf conf'
  own : conf'.shape target = (conf.shape target).withChildren (conf'.shape target).children
  literal : Literal rules (conf'.shape target)
  absorbs : AbsorbsAll rules (conf'.shape target).children ts

/-- The sections can be merged one after the other. -/
structure Siblings (rules : Rules) (ts : List Shape) : Prop where
  wellKeyed : ∀ c ∈ ts, WellKeyed rules c
  literal : ∀ c ∈ ts, Literal rules c
  apart : ts.Pairwise (Apart rules)

/-- The first ones of siblings are siblings. -/
lemma Siblings.left {xs ys : List Shape} (h : Siblings rules (xs ++ ys)) : Siblings rules xs :=
  ⟨fun c hc => h.wellKeyed c (List.mem_append_left _ hc),
    fun c hc => h.literal c (List.mem_append_left _ hc), (List.pairwise_append.1 h.apart).1⟩

/-- What pairs with the last sibling pairs with no other one. -/
lemma Siblings.not_pairs {done : List Shape} {s b : Shape} (h : Siblings rules (done ++ [s]))
    (pairs : b.pairs rules.keyName s = true) {c : Shape} (hc : c ∈ done) :
    b.pairs rules.keyName c = false := by
  have apart := (List.pairwise_append.1 h.apart).2.2 c hc s (by simp)
  exact (h.wellKeyed s (by simp)).not_pairs (h.wellKeyed c (List.mem_append_left _ hc)) apart.symm
    pairs

/-- Sections that were merged stay so when others are merged. -/
lemma MergedAll.trans {ts us : List Shape} {conf₁ : Configuration} (wf : conf.WellFormed)
    (h : MergedAll rules target ts conf conf₁) (k : MergedAll rules target us conf₁ conf') :
    MergedAll rules target us conf conf' := by
  refine ⟨h.confined.trans wf k.confined, ?_, k.literal, k.absorbs⟩
  have own := k.own
  rw [h.own] at own
  exact own

section

variable {done : List Shape} {s : Shape} (wf : conf.WellFormed) (h : conf.live? target = some d)
  (literal : Literal rules (conf.shape target)) (siblings : Siblings rules (done ++ [s]))
  (absorbs : AbsorbsAll rules (conf.shape target).children done)

include wf h literal siblings absorbs

/-- A section that was merged into a child section is absorbed like those before it. -/
lemma Merged.all {id : Nat} (merged : Merged rules id s conf conf')
    (found : ((d.entries .sectionKind).find? fun c => (conf.shape c).pairs rules.keyName s) =
      some id) : MergedAll rules target (done ++ [s]) conf conf' := by
  obtain ⟨pairs, pre, post, split, before⟩ := List.find?_eq_some_iff_append.1 found
  have pairs' := merged.pairs pairs
  have old : conf.shape target = (conf.shape target).withChildren
      (pre.map conf.shape ++ conf.shape id :: post.map conf.shape) := by
    rw [shape_eq wf h, split, List.map_append, List.map_cons]
    rfl
  have new : conf'.shape target = (conf.shape target).withChildren
      (pre.map conf.shape ++ conf'.shape id :: post.map conf.shape) := by
    rw [merged.confined.shape_child wf h split, shape_eq wf h]
    rfl
  rw [old] at absorbs literal
  refine ⟨merged.confined.above wf (.of_mem_entries wf h (k := .sectionKind) (by simp [split])),
    by rw [new]; rfl, ?_, ?_⟩
  · rw [new]
    obtain ⟨attributes, children⟩ := literal_iff.1 literal
    refine literal_iff.2 ⟨attributes, fun c hc => ?_⟩
    rcases List.mem_append.1 hc with hc | hc
    · exact children c (List.mem_append_left _ hc)
    · rcases List.mem_cons.1 hc with rfl | hc
      · exact merged.literal
      · exact children c (List.mem_append_right _ (List.mem_cons_of_mem _ hc))
  · rw [new]
    have others : AbsorbsAll rules (pre.map conf.shape ++ conf'.shape id :: post.map conf.shape)
        done := absorbs.set fun c hc =>
      ⟨siblings.not_pairs pairs hc, siblings.not_pairs pairs' hc⟩
    refine others.concat ?_ merged.absorbs
    -- No section before it could be paired.
    refine List.find?_eq_some_iff_append.2 ⟨pairs', _, _, rfl, fun x hx => ?_⟩
    obtain ⟨c, hc, rfl⟩ := List.mem_map.1 hx
    exact before c hc

/-- A section that was copied behind the child sections is absorbed like those before it. -/
lemma mergedAll_of_copied (confined : Confined target conf conf')
    (copied : conf'.shape target = (conf.shape target).extend [] [s])
    (found : ((d.entries .sectionKind).find? fun c => (conf.shape c).pairs rules.keyName s) =
      none) : MergedAll rules target (done ++ [s]) conf conf' := by
  have new : conf'.shape target =
      (conf.shape target).withChildren ((conf.shape target).children ++ [s]) := by
    rw [copied, Shape.extend, List.append_nil]
    rfl
  have wellKeyed := siblings.wellKeyed s (by simp)
  refine ⟨confined, by rw [new]; rfl, ?_, ?_⟩
  · rw [new]
    obtain ⟨attributes, children⟩ := literal_iff.1 literal
    refine literal_iff.2 ⟨attributes, fun c hc => ?_⟩
    rcases List.mem_append.1 hc with hc | hc
    · exact children c hc
    · obtain rfl := List.mem_singleton.1 hc
      exact siblings.literal c (by simp)
  · rw [new]
    have whole : Absorbs rules s s := by
      have copy := absorbs_copy wellKeyed s.name
      rwa [show Shape.mk s.name s.value s.attributes s.children = s from Shape.withChildren_self]
        at copy
    refine absorbs.append.concat ?_ whole
    have none : (conf.shape target).children.find? (·.pairs rules.keyName s) = none := by
      rw [shape_eq wf h, Shape.children, List.find?_map]
      exact Option.map_eq_none_iff.2 found
    rw [List.find?_append, none, Option.none_or]
    exact List.find?_cons_of_pos wellKeyed.pairs_self

end

/-! ## Merging what is well-keyed -/

variable (process) in
mutual

/-- A merge of a well-keyed section that succeeds leaves a section behind that absorbs it. -/
lemma mergeSection_absorbs (wfs : source.WellFormed) (appends : rules.appends = false) :
    ∀ (t : Subtree) {conf conf' : Configuration} {target : Nat} {d : NodeData},
      TakenFrom source t → WellKeyed rules t.shape → Literal rules t.shape → conf.WellFormed →
      conf.readOnly = false → conf.live? target = some d → d.kind = .sectionKind →
      Literal rules (conf.shape target) →
      (mergeSection process rules source target t).apply conf = (.ok (), conf') →
      Merged rules target t.shape conf conf'
  | .mk id name value attributes children, conf, conf', target, d, taken, wellKeyed, literal', wf,
      writable, h, sec, literal, run => by
    have named := taken.named wfs
    have own := mergeOwn_spec (.mk id name value attributes children) wf writable h sec named.2.1
    obtain ⟨conf₁, conf₂, run₁, run₂, confined, shape, -⟩ := own
    have undeclared := (Shape.allAttributes_iff.1 wellKeyed.undeclared).1
    have siblings : Siblings rules ([] ++ Subtree.shapes children) :=
      ⟨fun c hc => wellKeyed.child hc, (literal_iff.1 literal').2,
        wellKeyed.distinct _ (Shape.mem_sections_self _)⟩
    rw [mergeSection] at run
    obtain ⟨policy, conf₀, looked, run⟩ := of_apply_bind_ok run
    rw [apply_look] at looked
    obtain ⟨found, rfl⟩ := Prod.mk.inj looked
    have declared := (policyOf_literal process wf h (literal_iff.1 literal).1).1 found
    cases policy with
    | stop =>
      cases run
      exact ⟨.refl wf, literal, .stop declared, fun pairs => pairs⟩
    | fail =>
      rw [apply_look] at run
      cases run
    | replace =>
      obtain ⟨conf₃, run₃, confined, shape⟩ := replaceBy_spec wf writable h sec named
      rw [run₃] at run
      cases run
      have name : d.name = (conf.shape target).name := (name_shape wf h).symm
      refine ⟨confined, ?_, ?_, fun pairs => ?_⟩
      · rw [shape]
        exact literal_iff.2 ⟨(literal_iff.1 literal').1, (literal_iff.1 literal').2⟩
      · rw [shape]
        exact absorbs_copy wellKeyed _
      · rw [shape]
        exact wellKeyed.pairs_of_key name (fun _ => rfl) pairs
    | attributes =>
      have run : (Except.ok (), conf₂) = (Except.ok (), conf') :=
        ((apply_bind_ok run₁).trans run₂).symm.trans run
      cases run
      refine ⟨confined, ?_, .attributes ?_ ?_, fun pairs => ?_⟩
      · rw [shape]
        exact literal.lay literal'
      · rw [shape, Shape.policy?_lay undeclared, declared]
      · rw [shape, Shape.lay_lay]
      · rw [shape]
        exact wellKeyed.pairs_lay pairs (conf.shape target).children
    | sections =>
      have all := mergeSections_absorbs wfs appends children (taken.child wfs) siblings wf writable
        h sec literal .nil run
      refine ⟨all.confined, all.literal, .sections ?_ all.absorbs, fun pairs => ?_⟩
      · rw [all.own]
        exact declared
      · rw [all.own]
        exact pairs
    | all =>
      have run : (mergeSections process rules source target children).apply conf₂ =
          (.ok (), conf') := ((apply_bind_ok run₁).trans (apply_bind_ok run₂)).symm.trans run
      obtain ⟨d₂, h₂, kind, -⟩ := confined.kept d h
      have literal₂ : Literal rules (conf₂.shape target) := by
        rw [shape]
        exact literal.lay literal'
      have all := mergeSections_absorbs wfs appends children (taken.child wfs) siblings
        confined.wellFormed (confined.readOnly.trans writable) h₂ (kind.trans sec) literal₂ .nil run
      have own := all.own
      rw [shape] at own
      refine ⟨confined.trans wf all.confined, all.literal, .all ?_ ?_ all.absorbs, fun pairs => ?_⟩
      · rw [own]
        exact (Shape.policy?_lay undeclared).trans declared
      · rw [own, Shape.lay_withChildren, Shape.lay_lay]
      · rw [own]
        exact wellKeyed.pairs_lay pairs _

/-- After a merge of sections all of them are absorbed. -/
lemma mergeSections_absorbs (wfs : source.WellFormed) (appends : rules.appends = false) :
    ∀ (ts : List Subtree) {conf conf' : Configuration} {target : Nat} {d : NodeData}
      {done : List Shape}, (∀ t ∈ ts, TakenFrom source t) →
      Siblings rules (done ++ Subtree.shapes ts) → conf.WellFormed → conf.readOnly = false →
      conf.live? target = some d → d.kind = .sectionKind → Literal rules (conf.shape target) →
      AbsorbsAll rules (conf.shape target).children done →
      (mergeSections process rules source target ts).apply conf = (.ok (), conf') →
      MergedAll rules target (done ++ Subtree.shapes ts) conf conf'
  | [], conf, conf', target, d, done, _, _, wf, _, _, _, literal, absorbs, run => by
    rw [mergeSections] at run
    cases run
    rw [Subtree.shapes, List.append_nil]
    exact ⟨.refl wf, Shape.withChildren_self.symm, literal, absorbs⟩
  | t :: ts, conf, conf', target, d, done, taken, siblings, wf, writable, h, sec, literal, absorbs,
      run => by
    rw [Subtree.shapes, List.append_cons] at siblings ⊢
    have taken' := taken t List.mem_cons_self
    have now := siblings.left
    have wellKeyed := now.wellKeyed t.shape (by simp)
    have literal' := now.literal t.shape (by simp)
    rw [mergeSections, apply_bind_ok (look_matchOf process wf wfs appends h taken' literal.children
      (literal_iff.1 literal').1)] at run
    obtain ⟨conf₁, first, run⟩ : ∃ conf₁, MergedAll rules target (done ++ [t.shape]) conf conf₁ ∧
        (mergeSections process rules source target ts).apply conf₁ = (.ok (), conf') := by
      cases found : (d.entries .sectionKind).find? fun c =>
        (conf.shape c).pairs rules.keyName t.shape with
      | some c =>
        rw [found] at run
        obtain ⟨⟨⟩, conf₁, run₁, run⟩ := of_apply_bind_ok run
        have hm := List.mem_of_find?_eq_some found
        obtain ⟨e, live, kind, -⟩ := wf.listed target d _ c h hm
        have inside : Literal rules (conf.shape c) := by
          refine (literal_iff.1 literal).2 _ ?_
          rw [shape_eq wf h]
          exact List.mem_map_of_mem hm
        have merged := mergeSection_absorbs wfs appends t taken' wellKeyed literal' wf writable live
          kind inside run₁
        exact ⟨conf₁, merged.all wf h literal now absorbs found, run⟩
      | none =>
        rw [found] at run
        obtain ⟨conf₁, run₁, confined, copied⟩ := copySubtree_spec wf writable h sec
          (taken'.named wfs)
        refine ⟨conf₁, mergedAll_of_copied wf h literal now absorbs confined copied found, ?_⟩
        exact (apply_bind_ok run₁).symm.trans run
    obtain ⟨d₁, h₁, kind, -⟩ := first.confined.kept d h
    have rest := mergeSections_absorbs wfs appends ts
      (fun x hx => taken x (List.mem_cons_of_mem _ hx)) siblings first.confined.wellFormed
      (first.confined.readOnly.trans writable) h₁ (kind.trans sec) first.literal first.absorbs run
    exact first.trans wf rest

end

end Edit

/-! ## Layers -/

namespace Configuration

/-- A layer that is well-keyed and was merged can be merged again, and then nothing changes. -/
theorem overrideBy_again {a b c : Configuration} (ha : Reachable a) (hb : Reachable b)
    (writable : a.readOnly = false) (appends : rules.appends = false)
    (wellKeyed : WellKeyed rules (b.shape root)) (literalA : Literal rules (a.shape root))
    (literalB : Literal rules (b.shape root))
    (run : (Edit.overrideBy process rules b).apply a = (.ok (), c)) :
    ∀ process', (Edit.overrideBy process' rules b).apply c = (.ok (), c) := by
  have wfa := ha.wellFormed
  have wfb := hb.wellFormed
  obtain ⟨d, h, sec, -⟩ := wfa.root
  obtain ⟨e, h', sec', -⟩ := wfb.root
  have taken := takenFrom_subtree h' sec'
  have merged := Edit.mergeSection_absorbs process wfb appends (b.subtree root) taken wellKeyed
    literalB wfa writable h sec literalA ((overrideBy_apply process wfb h sec).symm.trans run)
  obtain ⟨d', live, kind, -⟩ := merged.confined.kept d h
  intro process'
  rw [overrideBy_apply process' wfb live (kind.trans sec)]
  exact Edit.mergeSection_absorbed process' merged.confined.wellFormed wfb
    (merged.confined.readOnly.trans writable) appends (b.subtree root) taken literalB live
    (kind.trans sec) merged.literal merged.absorbs

/-- A layer with a section to be merged, one to be replaced, one to be left alone, and a new one. -/
theorem overrideBy_again_sample :
    let a := (withRoot "base").operateAll
      [(.bare, .addSection 0 "Server" none), (.bare, .addAttribute 1 "name" (some "x")),
        (.bare, .addSection 0 "server" (some "old")), (.bare, .addAttribute 3 "name" (some "y")),
        (.bare, .addAttribute 3 "_override" (some " Replace ")), (.bare, .addSection 0 "log" none),
        (.bare, .addAttribute 6 "_override" (some "stop"))]
    let b := (withRoot "layer").operateAll
      [(.bare, .addSection 0 "server" (some "1")), (.bare, .addAttribute 1 "name" (some "x")),
        (.bare, .addSection 0 "SERVER" (some "2")), (.bare, .addAttribute 3 "name" (some "y")),
        (.bare, .addAttribute 3 "port" none), (.bare, .addSection 0 "log" (some "3")),
        (.bare, .addSection 0 "cache" (some "4"))]
    ∃ c, (Edit.overrideBy .bare .standard b).apply a = (.ok (), c) ∧
      (c.shape root).children.map (fun s => (s.name, s.value)) =
        [("Server", some "1"), ("server", some "2"), ("log", none), ("cache", some "4")] ∧
      (Edit.overrideBy .bare .standard b).apply c = (.ok (), c) := by
  intro a b
  have ha : Reachable a := (Reachable.withRoot "base").operateAll _ (by simp [Operation.others])
  have hb : Reachable b := (Reachable.withRoot "layer").operateAll _ (by simp [Operation.others])
  have wellKeyed : WellKeyed .standard (b.shape root) := by decide +kernel
  have literalA : Literal .standard (a.shape root) := by decide +kernel
  have literalB : Literal .standard (b.shape root) := by decide +kernel
  have writable : a.readOnly = false := by decide +kernel
  have succeeds : ((Edit.overrideBy .bare .standard b).apply a).1 = .ok () := by decide +kernel
  have run : (Edit.overrideBy .bare .standard b).apply a =
      (.ok (), ((Edit.overrideBy .bare .standard b).apply a).2) := Prod.ext succeeds rfl
  exact ⟨_, run, by decide +kernel,
    overrideBy_again ha hb writable rfl wellKeyed literalA literalB run .bare⟩

end Configuration

end ConfTree
