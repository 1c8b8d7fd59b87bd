import ConfTree.Proofs.Merge.Pairing

/-!
# Merges in the arena

What the edits of a merge do to the shape of the target. The attributes and the child sections of
the source are taken one after the other, and after each step the lists of the target are an overlay
of those that were there and those that were taken. For uniformly keyed layers the whole is the
merge of the shapes (`mergeSection_spec`).
-/

namespace ConfTree

open ConfTree.Configuration ConfTree.Text

/-! ## Lists -/

/-- The member at a position among those with a property has as many of them before it. -/
lemma exists_split {α : Type} {p : α → Bool} {l : List α} {k : Nat} {a : α}
    (h : (l.filter p)[k]? = some a) :
    ∃ pre post, l = pre ++ a :: post ∧ p a = true ∧ pre.countP p = k := by
  induction l generalizing k with
  | nil => cases h
  | cons b l ih =>
    by_cases hb : p b = true
    · rw [List.filter_cons_of_pos hb] at h
      cases k with
      | zero =>
        cases h
        exact ⟨[], l, rfl, hb, rfl⟩
      | succ k =>
        obtain ⟨pre, post, rfl, ha, count⟩ := ih h
        exact ⟨b :: pre, post, rfl, ha, by rw [List.countP_cons_of_pos hb, count]⟩
    · rw [List.filter_cons_of_neg hb] at h
      obtain ⟨pre, post, rfl, ha, count⟩ := ih h
      exact ⟨b :: pre, post, rfl, ha, by rw [List.countP_cons_of_neg hb, count]⟩

/-! ## Values and attributes -/

namespace Edit

variable {conf : Configuration} {target : Nat} {d : NodeData}

/-- A value of the source is taken over, unless it is there already. -/
lemma mergeValue_spec (wf : conf.WellFormed) (writable : conf.readOnly = false)
    (h : conf.live? target = some d) (value : Option String) :
    ∃ conf', (mergeValue target value).apply conf = (.ok (), conf') ∧
      Confined target conf conf' ∧
      conf'.shape target = .mk d.name (value.or d.value) (conf.shape target).attributes
        (conf.shape target).children ∧
      (value.or d.value = d.value → conf' = conf) := by
  have old : conf.verbatim? target = d.value := by simp [verbatim?, h]
  have run : (mergeValue target value).apply conf =
      (if value.isSome && conf.verbatim? target != value then setValue target value
        else pure ()).apply conf := apply_bind_ok apply_get
  rw [run, old]
  split
  · rename_i set
    rw [Bool.and_eq_true] at set
    refine ⟨_, apply_setValue writable h, .replaceValue target value wf, ?_, ?_⟩
    · rw [shape_replaceValue wf h]
      cases value with
      | none => cases set.1
      | some v => rfl
    · intro same
      cases value with
      | none => cases set.1
      | some v =>
        rw [← same] at set
        simp at set
  · -- The target has the value already, or there is none.
    rename_i keep
    refine ⟨conf, rfl, .refl wf, ?_, fun _ => rfl⟩
    have same : value.or d.value = d.value := by
      cases value with
      | none => rfl
      | some v =>
        have has : d.value = some v := by simpa using keep
        exact has.symm
    rw [same, shape_eq wf h]
    rfl

/-- An attribute takes the value of its counterpart, unless it has it already. -/
lemma overwrite_spec (wf : conf.WellFormed) (writable : conf.readOnly = false)
    {id : Nat} {e : NodeData} (h : conf.live? id = some e) (value : Option String) :
    ∃ conf', (if conf.verbatim? id != value then setValue id value else pure ()).apply conf =
        (.ok (), conf') ∧ Confined id conf conf' ∧ conf'.pairOf id = (e.name, value) ∧
      (e.value = value → conf' = conf) := by
  have old : conf.verbatim? id = e.value := by simp [verbatim?, h]
  split
  · rename_i differs
    refine ⟨_, apply_setValue writable h, .replaceValue id value wf, pairOf_replaceValue h, ?_⟩
    rintro rfl
    simp [old] at differs
  · rename_i keep
    refine ⟨conf, rfl, .refl wf, ?_, fun _ => rfl⟩
    rw [pairOf_eq h]
    simpa [old] using keep

/-- After one step of a merge of attributes, one more counts as taken. -/
lemma mergeAttributes_step {a : Attribute} (rest : List Attribute)
    (good : GoodName a.name)
    (wf : conf.WellFormed) (writable : conf.readOnly = false)
    (h : conf.live? target = some d) (sec : d.kind = .sectionKind)
    {base done : List (String × Option String)}
    (laid : (conf.shape target).attributes = overlay sameAttribute takeValue base done) :
    ∃ conf', (mergeAttributes target (done.map (·.1)) (a :: rest)).apply conf =
        (mergeAttributes target ((done ++ [a.pair]).map (·.1)) rest).apply conf' ∧
      Confined target conf conf' ∧
      conf'.shape target = .mk d.name d.value
        (overlay sameAttribute takeValue base (done ++ [a.pair]))
        (conf.shape target).children ∧
      (overlay sameAttribute takeValue base (done ++ [a.pair]) = (conf.shape target).attributes →
        conf' = conf) := by
  have looks : (conf.shape target).attributes = (d.entries .attributeKind).map conf.pairOf := by
    rw [shape_eq wf h]
    rfl
  -- The edit tells attributes by their names, and so does the overlay by their looks.
  have named : ∀ x ∈ d.entries .attributeKind,
      conf.isNamed x a.name = sameAttribute (conf.pairOf x) a.pair := by
    intro x hx
    obtain ⟨e, live, -⟩ := wf.listed target d _ x h hx
    rw [isNamed_eq live, good.2]
    rfl
  have seen : ((done.map (·.1)).filter (sameName · a.name)).length =
      done.countP (sameAttribute · a.pair) := by
    rw [← List.countP_eq_length_filter, List.countP_map]
    rfl
  have names : (done ++ [a.pair]).map (·.1) = done.map (·.1) ++ [a.name] := by simp [Attribute.pair]
  have entries : ∀ ids : List NodeId, ids ⊆ d.entries .attributeKind →
      (ids.map conf.pairOf).countP (sameAttribute · a.pair) =
        ids.countP (conf.isNamed · a.name) := by
    intro ids sub
    rw [List.countP_map]
    exact List.countP_congr fun x hx => by rw [named x (sub hx)]; rfl
  rw [mergeAttributes, apply_bind_ok apply_get, attributesOf_eq h, seen, names]
  cases found : ((d.entries .attributeKind).filter (conf.isNamed · a.name))[
    done.countP (sameAttribute · a.pair)]? with
  | some id =>
    -- The counterpart has as many attributes of the name before it as were taken.
    obtain ⟨pre, post, split, hid, count⟩ := exists_split found
    have hm : id ∈ d.entries .attributeKind := by simp [split]
    obtain ⟨e, live, -⟩ := wf.listed target d _ id h hm
    obtain ⟨conf', run, confined, pair, keep⟩ := overwrite_spec wf writable live a.value
    have lists : overlay sameAttribute takeValue base done =
        pre.map conf.pairOf ++ conf.pairOf id :: post.map conf.pairOf := by
      rw [← laid, looks, split, List.map_append, List.map_cons]
    have same : sameAttribute (conf.pairOf id) a.pair = true := by rw [← named id hm, hid]
    rw [← entries pre (by simp [split])] at count
    have whole := classes_attributes.overlay_concat_of_split lists same count
    refine ⟨conf', ?_, confined.above wf (.of_mem_entries wf h hm), ?_, fun equal => ?_⟩
    · dsimp only
      rw [found]
      dsimp only
      split
      · rename_i differs
        rw [if_pos differs] at run
        exact apply_bind_ok run
      · rename_i equal
        rw [if_neg equal] at run
        cases run
        rfl
    · rw [confined.shape_attribute wf h split, pair, whole, shape_eq wf h, pairOf_eq live]
      rfl
    · -- The overlay can only be the same if the counterpart has the value.
      rw [whole, laid, lists] at equal
      have head := (List.cons.inj (List.append_cancel_left equal)).1
      rw [pairOf_eq live] at head
      exact keep (Prod.mk.inj head).2.symm
  | none =>
    -- All attributes of the name were taken, so the new one comes last.
    have few := found
    rw [List.getElem?_eq_none_iff, ← List.countP_eq_length_filter,
      ← entries _ (List.Subset.refl _), ← looks, laid] at few
    have whole := classes_attributes.overlay_concat_of_le few
    refine ⟨_, ?_, .addNode .attributeKind a.value wf h sec good, ?_, fun equal => ?_⟩
    · dsimp only
      rw [found]
      exact apply_bind_ok (apply_append writable h sec good)
    · rw [shape_addNode_attribute wf h sec good, whole, ← laid, shape_eq wf h]
      simp [Shape.extend, Shape.name, Shape.value, Shape.attributes, Shape.children,
        Attribute.pair]
    · rw [whole, laid] at equal
      simp at equal

/-- Attributes of the source are laid over those of the target one after the other. -/
lemma mergeAttributes_spec {attributes : List Attribute}
    (good : ∀ a ∈ attributes, GoodName a.name)
    (wf : conf.WellFormed) (writable : conf.readOnly = false)
    (h : conf.live? target = some d) (sec : d.kind = .sectionKind)
    {base done : List (String × Option String)}
    (laid : (conf.shape target).attributes = overlay sameAttribute takeValue base done) :
    ∃ conf', (mergeAttributes target (done.map (·.1)) attributes).apply conf = (.ok (), conf') ∧
      Confined target conf conf' ∧
      conf'.shape target = .mk d.name d.value
        (overlay sameAttribute takeValue base (done ++ attributes.map Attribute.pair))
        (conf.shape target).children ∧
      (overlay sameAttribute takeValue base (done ++ attributes.map Attribute.pair) = base →
        conf' = conf) := by
  induction attributes generalizing conf d done with
  | nil =>
    refine ⟨conf, rfl, .refl wf, ?_, fun _ => rfl⟩
    rw [List.map_nil, List.append_nil, ← laid, shape_eq wf h]
    rfl
  | cons a attributes ih =>
    have first := good a List.mem_cons_self
    obtain ⟨conf₁, run₁, confined₁, shape₁, keep₁⟩ :=
      mergeAttributes_step attributes first wf writable h sec laid
    obtain ⟨e, he, kind, -⟩ := confined₁.kept d h
    obtain ⟨conf₂, run₂, confined₂, shape₂, keep₂⟩ := ih
      (fun x hx => good x (List.mem_cons_of_mem _ hx)) confined₁.wellFormed
      (confined₁.readOnly.trans writable) he (kind.trans sec) (by rw [shape₁]; rfl)
    have own := of_shape_eq confined₁.wellFormed he shape₁
    refine ⟨conf₂, run₁.trans run₂, confined₁.trans wf confined₂, ?_, fun same => ?_⟩
    · rw [shape₂, shape₁, own.1, own.2, List.append_assoc]
      rfl
    · -- If all attributes together change nothing, then neither do the first ones.
      rw [List.map_cons, List.append_cons] at same
      have now := overlay_eq_self_of_append same
      have before := overlay_eq_self_of_append now
      rw [keep₂ same, keep₁ (by rw [now, laid, before])]

/-- The value and the attributes of a section of the source are laid over those of the target. -/
lemma mergeOwn_spec (t : Subtree) (wf : conf.WellFormed) (writable : conf.readOnly = false)
    (h : conf.live? target = some d) (sec : d.kind = .sectionKind)
    (good : ∀ a ∈ t.attributes, GoodName a.name) :
    ∃ conf₁ conf₂, (mergeValue target t.value).apply conf = (.ok (), conf₁) ∧
      (mergeAttributes target [] t.attributes).apply conf₁ = (.ok (), conf₂) ∧
      Confined target conf conf₂ ∧
      conf₂.shape target = (conf.shape target).lay t.shape ∧
      ((conf.shape target).lay t.shape = conf.shape target → conf₂ = conf) := by
  obtain ⟨_, _, value, attributes, _⟩ := t
  obtain ⟨conf₁, run₁, confined₁, shape₁, keep₁⟩ := mergeValue_spec wf writable h value
  obtain ⟨d₁, h₁, kind₁, -⟩ := confined₁.kept d h
  obtain ⟨conf₂, run₂, confined₂, shape₂, keep₂⟩ := mergeAttributes_spec good confined₁.wellFormed
    (confined₁.readOnly.trans writable) h₁ (kind₁.trans sec) (overlay_nil _).symm
  obtain ⟨name₁, value₁⟩ := of_shape_eq confined₁.wellFormed h₁ shape₁
  rw [name₁, value₁, shape₁] at shape₂
  rw [shape₁] at keep₂
  have own : (conf.shape target).name = d.name ∧ (conf.shape target).value = d.value := by
    rw [shape_eq wf h]
    exact ⟨rfl, rfl⟩
  refine ⟨conf₁, conf₂, run₁, run₂, confined₁.trans wf confined₂, ?_, fun same => ?_⟩
  · rw [shape₂, Shape.lay, own.1, own.2]
    rfl
  · rw [Shape.lay, own.2] at same
    have value' := congrArg Shape.value same
    rw [own.2] at value'
    rw [keep₂ (congrArg Shape.attributes same), keep₁ value']

/-- A section that is replaced keeps its name only. -/
lemma replaceBy_spec (wf : conf.WellFormed) (writable : conf.readOnly = false)
    (h : conf.live? target = some d) (sec : d.kind = .sectionKind) {t : Subtree} (named : t.Named) :
    ∃ conf', (replaceBy target t).apply conf = (.ok (), conf') ∧ Confined target conf conf' ∧
      conf'.shape target = .mk d.name t.shape.value t.shape.attributes t.shape.children := by
  have cleared := Confined.emptyNode wf h
  have live₁ := live?_emptyNode_self wf h
  have set : Confined target _ _ := .replaceValue target t.value cleared.wellFormed
  have live₂ : (Configuration.replaceValue _ target t.value).live? target = _ :=
    live?_replaceValue_self live₁
  obtain ⟨conf', run, copied, shape⟩ := copyContent_spec set.wellFormed
    (set.readOnly.trans (cleared.readOnly.trans writable)) live₂
    ((NodeData.kind_cleared true).trans sec) named
  refine ⟨conf', ?_, (cleared.trans wf set).trans wf copied, ?_⟩
  · rw [replaceBy, apply_bind_ok (apply_clear writable h sec),
      apply_bind_ok (apply_setValue (cleared.readOnly.trans writable) live₁), run]
  · rw [shape, shape_replaceValue cleared.wellFormed live₁, shape_emptyNode wf h]
    cases t
    rfl

end Edit

/-! ## Pairing sections -/

section

variable {rules : Rules} {keyed : String → Prop}

/-- Where all sections of a name have keys or none has, sections pair if they agree. -/
lemma FitsAll.pairs_eq_agrees {children : List Shape} {s t : Shape}
    (respects : ∀ x y, sameName x y = true → (keyed x ↔ keyed y))
    (fits : FitsAll rules keyed children) (hs : s ∈ children) (fits' : Fits rules keyed t)
    (carried : t.carries rules.keyName = true ↔ keyed t.name) :
    s.pairs rules.keyName t = s.agrees rules.keyName t := by
  rw [Shape.pairs, Shape.agrees]
  cases same : sameName s.name t.name with
  | false => rfl
  | true =>
    cases ht : t.carries rules.keyName with
    | true =>
      obtain ⟨v, hv⟩ := fits'.key?_of_carries ht
      rw [hv]
      rfl
    | false =>
      have unkeyed : s.carries rules.keyName = false := by
        rw [Bool.eq_false_iff, ne_eq, fits.carried s hs, respects _ _ same, ← carried, ht]
        simp
      rw [key?_of_not_carries ht, key?_of_not_carries unkeyed]
      rfl

end

/-! ## Sections -/

namespace Edit

variable {process : Host} {rules : Rules} {source : Configuration} {keyed : String → Prop}

/-- After one step of a merge of sections, one more counts as taken. -/
lemma mergeSections_step (wfs : source.WellFormed) (appends : rules.appends = false)
    (respects : ∀ x y, sameName x y = true → (keyed x ↔ keyed y))
    {t : Subtree} (rest : List Subtree) (taken : TakenFrom source t)
    (recur : ∀ {conf : Configuration} {target : Nat} {d : NodeData}, conf.WellFormed →
      conf.readOnly = false → conf.live? target = some d → d.kind = .sectionKind →
      Fits rules keyed (conf.shape target) →
      ∃ conf', (mergeSection process rules source target t).apply conf = (.ok (), conf') ∧
        Confined target conf conf' ∧
        conf'.shape target = (conf.shape target).merge rules.keyName t.shape)
    {conf : Configuration} {target : Nat} {d : NodeData} (wf : conf.WellFormed)
    (writable : conf.readOnly = false) (h : conf.live? target = some d)
    (sec : d.kind = .sectionKind) {base done : List Shape}
    (laid : (conf.shape target).children = Shape.mergeAll rules.keyName base done)
    (fits : FitsAll rules keyed base) (fits' : FitsAll rules keyed (done ++ [t.shape])) :
    ∃ conf', (mergeSections process rules source target (t :: rest)).apply conf =
        (mergeSections process rules source target rest).apply conf' ∧
      Confined target conf conf' ∧
      conf'.shape target = .mk d.name d.value (conf.shape target).attributes
        (Shape.mergeAll rules.keyName base (done ++ [t.shape])) := by
  have last : t.shape ∈ done ++ [t.shape] := by simp
  have children : (conf.shape target).children = (d.entries .sectionKind).map conf.shape := by
    rw [shape_eq wf h]
    rfl
  have now : FitsAll rules keyed (conf.shape target).children := by
    rw [laid]
    exact fits.mergeAll respects fits'.left
  -- Nothing that was taken before agrees with the section.
  have fresh : done.countP (Shape.agrees rules.keyName · t.shape) = 0 := by
    rw [List.countP_eq_zero]
    intro x hx
    have := (List.pairwise_append.1 fits'.distinct).2.2 x hx t.shape (by simp)
    simp [this]
  have looked := look_matchOf process wf wfs appends h taken
    (fun c hc b hb => ((now.fits c hc).plain b hb).literal)
    (fun b hb => ((fits'.fits _ last).plain b hb).literal)
  have agrees : ((d.entries .sectionKind).find? fun c =>
      (conf.shape c).pairs rules.keyName t.shape) =
        (d.entries .sectionKind).find? fun c => (conf.shape c).agrees rules.keyName t.shape :=
    List.find?_congr fun c hc => now.pairs_eq_agrees respects
      (by rw [children]; exact List.mem_map_of_mem hc) (fits'.fits _ last) (fits'.carried _ last)
  rw [agrees] at looked
  rw [mergeSections]
  rw [Shape.mergeAll_eq] at laid
  simp only [Shape.mergeAll_eq]
  cases found : (d.entries .sectionKind).find? fun c =>
    (conf.shape c).agrees rules.keyName t.shape with
  | some id =>
    -- The first section that agrees is merged in its place.
    rw [found] at looked
    obtain ⟨agree, pre, post, split, before⟩ := List.find?_eq_some_iff_append.1 found
    have hm : id ∈ d.entries .sectionKind := by simp [split]
    obtain ⟨ce, liveC, kindC, -⟩ := wf.listed target d _ id h hm
    obtain ⟨conf', run, confined, merged⟩ := recur wf writable liveC kindC
      (now.fits _ (by rw [children]; exact List.mem_map_of_mem hm))
    refine ⟨conf', ?_, confined.above wf (.of_mem_entries wf h hm), ?_⟩
    · rw [apply_bind_ok looked]
      exact apply_bind_ok run
    · have lists : overlay (Shape.agrees rules.keyName) (Shape.merge rules.keyName) base done =
          pre.map conf.shape ++ conf.shape id :: post.map conf.shape := by
        rw [← laid, children, split, List.map_append, List.map_cons]
      have count : (pre.map conf.shape).countP (Shape.agrees rules.keyName · t.shape) =
          done.countP (Shape.agrees rules.keyName · t.shape) := by
        rw [fresh, List.countP_eq_zero]
        intro x hx
        obtain ⟨c, hc, rfl⟩ := List.mem_map.1 hx
        simpa using before c hc
      rw [confined.shape_child wf h split, merged,
        Shape.classes_sections.overlay_concat_of_split lists agree count, shape_eq wf h]
      rfl
  | none =>
    -- A section without a counterpart is copied behind the others.
    rw [found] at looked
    obtain ⟨conf', run, confined, copied⟩ := copySubtree_spec wf writable h sec
      (taken.named wfs)
    refine ⟨conf', ?_, confined, ?_⟩
    · rw [apply_bind_ok looked]
      exact apply_bind_ok run
    · have few : (overlay (Shape.agrees rules.keyName) (Shape.merge rules.keyName) base done).countP
          (Shape.agrees rules.keyName · t.shape) ≤
            done.countP (Shape.agrees rules.keyName · t.shape) := by
        rw [fresh, ← laid, children, Nat.le_zero, List.countP_eq_zero]
        intro x hx
        obtain ⟨c, hc, rfl⟩ := List.mem_map.1 hx
        exact List.find?_eq_none.1 found c hc
      rw [copied, Shape.classes_sections.overlay_concat_of_le few, ← laid, shape_eq wf h]
      simp [Shape.extend, Shape.name, Shape.value, Shape.attributes, Shape.children]

variable (process) in
mutual

/-- A merge of a section of the source gives the merge of the shapes. -/
lemma mergeSection_spec (wfs : source.WellFormed) (appends : rules.appends = false)
    (respects : ∀ x y, sameName x y = true → (keyed x ↔ keyed y)) :
    ∀ (t : Subtree) {conf : Configuration} {target : Nat} {d : NodeData}, TakenFrom source t →
      Fits rules keyed t.shape → conf.WellFormed → conf.readOnly = false →
      conf.live? target = some d → d.kind = .sectionKind → Fits rules keyed (conf.shape target) →
      ∃ conf', (mergeSection process rules source target t).apply conf = (.ok (), conf') ∧
        Confined target conf conf' ∧
        conf'.shape target = (conf.shape target).merge rules.keyName t.shape
  | .mk id name value attributes children, conf, target, d, taken, fits', wf, writable, h, sec,
      fits => by
    obtain ⟨-, good, -⟩ := taken.named wfs
    have policy : conf.policyOf process rules target = .ok .all :=
      (policyOf_literal process wf h fun a ha => (fits.plain a ha).literal).2
        (Shape.policy?_of_undeclared fun a ha => (fits.plain a ha).1)
    have looked : (Edit.look (·.policyOf process rules target)).apply conf = (.ok .all, conf) := by
      rw [apply_look, policy]
    -- The child sections are merged behind the value and the attributes.
    obtain ⟨conf₁, conf₂, run₁, run₂, confined, shape, -⟩ :=
      mergeOwn_spec (.mk id name value attributes children) wf writable h sec good
    obtain ⟨d₂, h₂, kind, -⟩ := confined.kept d h
    have own := of_shape_eq confined.wellFormed h₂ shape
    have laid : (conf₂.shape target).children =
        Shape.mergeAll rules.keyName (conf.shape target).children [] := by
      rw [shape, Shape.mergeAll_eq, overlay_nil]
      rfl
    obtain ⟨conf₃, run₃, confined₃, shape₃⟩ := mergeSections_spec wfs appends respects children
      (taken.child wfs) confined.wellFormed
      (confined.readOnly.trans writable) h₂ (kind.trans sec) laid fits.all fits'.all
    refine ⟨conf₃, ?_, confined.trans wf confined₃, ?_⟩
    · rw [mergeSection, apply_bind_ok looked]
      exact (apply_bind_ok run₁).trans ((apply_bind_ok run₂).trans run₃)
    · rw [shape₃, own.1, own.2, shape]
      cases conf.shape target
      rfl

/-- A merge of sections is one of their shapes. -/
lemma mergeSections_spec (wfs : source.WellFormed) (appends : rules.appends = false)
    (respects : ∀ x y, sameName x y = true → (keyed x ↔ keyed y)) :
    ∀ (ts : List Subtree) {conf : Configuration} {target : Nat} {d : NodeData}
      {base done : List Shape}, (∀ t ∈ ts, TakenFrom source t) → conf.WellFormed →
      conf.readOnly = false → conf.live? target = some d → d.kind = .sectionKind →
      (conf.shape target).children = Shape.mergeAll rules.keyName base done →
      FitsAll rules keyed base → FitsAll rules keyed (done ++ Subtree.shapes ts) →
      ∃ conf', (mergeSections process rules source target ts).apply conf = (.ok (), conf') ∧
        Confined target conf conf' ∧
        conf'.shape target = .mk d.name d.value (conf.shape target).attributes
          (Shape.mergeAll rules.keyName base (done ++ Subtree.shapes ts))
  | [], conf, target, d, base, done, _, wf, writable, h, sec, laid, _, _ => by
    refine ⟨conf, by rw [mergeSections]; rfl, .refl wf, ?_⟩
    rw [Subtree.shapes, List.append_nil, ← laid, shape_eq wf h]
    rfl
  | t :: ts, conf, target, d, base, done, taken, wf, writable, h, sec, laid, fits, fits' => by
    have taken' := taken t List.mem_cons_self
    rw [Subtree.shapes, List.append_cons] at fits' ⊢
    have last : t.shape ∈ done ++ [t.shape] := by simp
    have fitsT := fits'.left.fits _ last
    obtain ⟨conf₁, run₁, confined₁, shape₁⟩ := mergeSections_step wfs appends respects ts taken'
      (mergeSection_spec wfs appends respects t taken' fitsT) wf writable h sec laid fits fits'.left
    obtain ⟨d₁, h₁, kind₁, -⟩ := confined₁.kept d h
    have own₁ := of_shape_eq confined₁.wellFormed h₁ shape₁
    obtain ⟨conf₂, run₂, confined₂, shape₂⟩ := mergeSections_spec wfs appends respects ts
      (fun x hx => taken x (List.mem_cons_of_mem _ hx)) confined₁.wellFormed
      (confined₁.readOnly.trans writable) h₁ (kind₁.trans sec) (by rw [shape₁]; rfl) fits fits'
    refine ⟨conf₂, run₁.trans run₂, confined₁.trans wf confined₂, ?_⟩
    rw [shape₂, shape₁, own₁.1, own₁.2]
    rfl

end

end Edit

namespace Configuration

/-- A merge of a whole configuration is a merge of its root. -/
lemma overrideBy_apply (process : Host) {rules : Rules} {conf source : Configuration}
    {d : NodeData} (wfs : source.WellFormed) (h : conf.live? root = some d)
    (sec : d.kind = .sectionKind) :
    (Edit.overrideBy process rules source).apply conf =
      (Edit.mergeSection process rules source root (source.subtree root)).apply conf := by
  obtain ⟨e, live, sec', -⟩ := wfs.root
  have found : (Edit.look fun _ => source.requireSectionOf (some root)).apply conf =
      (.ok root, conf) := by
    have section' : source.isSection root = true := by
      simp [Configuration.isSection, live, NodeData.kind_eq_sectionKind.1 sec']
    rw [Edit.apply_look, requireSectionOf, if_pos section']
  have target : (Edit.look (·.requireSection root)).apply conf = (.ok d, conf) := by
    rw [Edit.apply_look, requireSection_ok.2 ⟨h, sec⟩]
  rw [Edit.overrideBy, Edit.overrideSection, Edit.apply_bind_ok found, Edit.apply_bind_ok target]

end Configuration

end ConfTree
