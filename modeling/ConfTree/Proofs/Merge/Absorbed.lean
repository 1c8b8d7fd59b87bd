import ConfTree.Proofs.Merge.Pairing

/-!
# Absorbed sections

A section absorbs another one if all that its policy lets through is there already, so that a merge
of the other one changes nothing (`Absorbs`). Copies of a well-keyed section absorb it
(`absorbs_copy`), and what was laid over the value and the attributes of a section is there from
then on (`Shape.lay_lay`).
-/

namespace ConfTree

open ConfTree.Text

variable {rules : Rules} {s t : Shape}

/-! ## Literal sections -/

/-- The values of the policies and the keys of all sections have no references. -/
def Literal (rules : Rules) (s : Shape) : Prop := s.AllAttributes (LiteralAttribute rules)

instance (rules : Rules) (s : Shape) : Decidable (Literal rules s) := by
  unfold Literal
  infer_instance

/-- A tree is literal if its attributes and its child sections are. -/
lemma literal_iff :
    Literal rules s ↔ (∀ a ∈ s.attributes, LiteralAttribute rules a) ∧
      ∀ c ∈ s.children, Literal rules c := Shape.allAttributes_iff

/-- The attributes of child sections are literal, too. -/
lemma Literal.children (h : Literal rules s) :
    ∀ c ∈ s.children, ∀ a ∈ c.attributes, LiteralAttribute rules a :=
  fun c hc => (literal_iff.1 ((literal_iff.1 h).2 c hc)).1

/-- An overlay has literal attributes if both lists have. -/
lemma literal_overlay {as bs : List (String × Option String)}
    (h : ∀ a ∈ as, LiteralAttribute rules a) (k : ∀ b ∈ bs, LiteralAttribute rules b) :
    ∀ a ∈ overlay sameAttribute takeValue as bs, LiteralAttribute rules a := by
  intro a ha
  rcases mem_overlay ha with ha | ha | ⟨x, hx, y, hy, same, rfl⟩
  · exact h a ha
  · exact k a ha
  · -- The value comes from an attribute of the same name.
    exact LiteralAttribute.respects same (k y hy)

/-! ## Well-keyed sections -/

/-- Sections of one name both have a match attribute, and the first ones have different values. -/
def Apart (rules : Rules) (s t : Shape) : Prop :=
  sameName s.name t.name = true → s.carries rules.keyName = true ∧ t.carries rules.keyName = true ∧
    s.key? rules.keyName ≠ t.key? rules.keyName

/-- No section declares a policy, no first match attribute is null, and sibling sections can be told
apart. -/
structure WellKeyed (rules : Rules) (s : Shape) : Prop where
  /-- No section has a policy attribute. -/
  undeclared : Undeclared rules s
  /-- The first match attribute of a section has a value. -/
  keys : ∀ t ∈ s.sections, t.carries rules.keyName = true → t.key? rules.keyName ≠ none
  /-- Siblings of one name have different keys. -/
  distinct : ∀ t ∈ s.sections, t.children.Pairwise (Apart rules)

instance (rules : Rules) (s t : Shape) : Decidable (Apart rules s t) := by
  unfold Apart
  infer_instance

instance (rules : Rules) (s : Shape) : Decidable (WellKeyed rules s) :=
  decidable_of_iff
    (Undeclared rules s ∧
      (∀ t ∈ s.sections, t.carries rules.keyName = true → t.key? rules.keyName ≠ none) ∧
      ∀ t ∈ s.sections, t.children.Pairwise (Apart rules))
    ⟨fun ⟨undeclared, keys, distinct⟩ => ⟨undeclared, keys, distinct⟩,
      fun h => ⟨h.undeclared, h.keys, h.distinct⟩⟩

/-- Child sections are well keyed, too. -/
lemma WellKeyed.child (h : WellKeyed rules s) {c : Shape} (hc : c ∈ s.children) :
    WellKeyed rules c := by
  have inside : ∀ t ∈ c.sections, t ∈ s.sections := fun t ht =>
    Shape.mem_sections_of_mem_descendants (Shape.mem_sectionsOf.2 ⟨c, hc, ht⟩)
  exact ⟨fun t ht => h.undeclared t (inside t ht), fun t ht => h.keys t (inside t ht),
    fun t ht => h.distinct t (inside t ht)⟩

/-- A key that is looked for is there. -/
lemma WellKeyed.key (h : WellKeyed rules s) (carries : s.carries rules.keyName = true) :
    ∃ v, s.key? rules.keyName = some v :=
  Option.ne_none_iff_exists'.1 (h.keys s s.mem_sections_self carries)

/-- The order of the sections does not count. -/
lemma Apart.symm (h : Apart rules s t) : Apart rules t s := by
  intro same
  obtain ⟨hs, ht, differ⟩ := h (sameName_symm same)
  exact ⟨ht, hs, differ.symm⟩

/-- A well-keyed section pairs with itself. -/
lemma WellKeyed.pairs_self (h : WellKeyed rules s) : s.pairs rules.keyName s = true := by
  rw [Shape.pairs, sameName_refl, Bool.true_and]
  cases hc : s.carries rules.keyName with
  | false => rfl
  | true =>
    obtain ⟨v, hv⟩ := h.key hc
    simp [hv]

/-- Well-keyed sections that can be told apart do not pair with one section. -/
lemma WellKeyed.not_pairs {b : Shape} (hs : WellKeyed rules s) (ht : WellKeyed rules t)
    (apart : Apart rules s t) (pairs : b.pairs rules.keyName s = true) :
    b.pairs rules.keyName t = false := by
  by_contra hn
  simp only [Shape.pairs, Bool.not_eq_false, Bool.and_eq_true] at pairs hn
  obtain ⟨carriesS, carriesT, differ⟩ := apart (sameName_trans (sameName_symm pairs.1) hn.1)
  obtain ⟨v, hv⟩ := hs.key carriesS
  obtain ⟨w, hw⟩ := ht.key carriesT
  simp only [carriesS, carriesT, hv, hw, Bool.not_true, Bool.false_or, beq_iff_eq,
    Option.getD_some] at pairs hn
  rw [pairs.2] at hn
  exact differ (by rw [hv, hw, hn.2])

/-- Of well-keyed siblings each pairs with itself first. -/
lemma find?_pairs_self {cs : List Shape} (wellKeyed : ∀ c ∈ cs, WellKeyed rules c)
    (distinct : cs.Pairwise (Apart rules)) {c : Shape} (hc : c ∈ cs) :
    cs.find? (·.pairs rules.keyName c) = some c := by
  induction cs with
  | nil => cases hc
  | cons x cs ih =>
    obtain ⟨first, rest⟩ := List.pairwise_cons.1 distinct
    have hx := wellKeyed x List.mem_cons_self
    rcases List.mem_cons.1 hc with rfl | hm
    · exact List.find?_cons_of_pos hx.pairs_self
    · have other := hx.not_pairs (wellKeyed c hc) (first c hm) hx.pairs_self
      rw [List.find?_cons_of_neg (by simp [other])]
      exact ih (fun y hy => wellKeyed y (List.mem_cons_of_mem _ hy)) rest hm

/-! ## Policies and keys -/

namespace Shape

/-- Without a policy attribute, what is laid over a section leaves its policy. -/
lemma policy?_lay (h : ∀ a ∈ t.attributes, sameName a.1 rules.policyName = false) :
    (s.lay t).policy? rules = s.policy? rules := by
  have none : t.attributes.find? (fun a => sameName a.1 rules.policyName) = none :=
    List.find?_eq_none.2 fun a ha => by simp [h a ha]
  have first : (s.lay t).key? rules.policyName = s.key? rules.policyName := by
    rw [key?, lay, attributes, find?_overlay_attributes, none, key?]
    cases s.attributes.find? fun a => sameName a.1 rules.policyName <;> rfl
  rw [policy?, first, policy?]

/-- A section that is laid over another one gives it its key, if it has one. -/
lemma key?_lay {keyName : String} (h : t.carries keyName = true) :
    (s.lay t).key? keyName = t.key? keyName := by
  rw [carries_eq, Option.isSome_iff_exists] at h
  obtain ⟨b, hb⟩ := h
  rw [key?, lay, attributes, find?_overlay_attributes, key?, hb]
  cases s.attributes.find? fun a => sameName a.1 keyName <;> rfl

end Shape

/-- One literal section laid over another is literal. -/
lemma Literal.lay (hs : Literal rules s) (ht : Literal rules t) : Literal rules (s.lay t) :=
  literal_iff.2
    ⟨literal_overlay (literal_iff.1 hs).1 (literal_iff.1 ht).1, (literal_iff.1 hs).2⟩

/-- A section that takes over the name of one and the key of the other pairs if the first one
does. -/
lemma WellKeyed.pairs_of_key {b : Shape} (h : WellKeyed rules t) (name : b.name = s.name)
    (key : t.carries rules.keyName = true → b.key? rules.keyName = t.key? rules.keyName)
    (pairs : s.pairs rules.keyName t = true) : b.pairs rules.keyName t = true := by
  rw [Shape.pairs, Bool.and_eq_true] at pairs
  rw [Shape.pairs, name, pairs.1, Bool.true_and]
  cases carries : t.carries rules.keyName with
  | false => rfl
  | true =>
    obtain ⟨v, hv⟩ := h.key carries
    simp [key carries, hv]

/-- What a section is laid over pairs with it afterwards. -/
lemma WellKeyed.pairs_lay (h : WellKeyed rules t) (pairs : s.pairs rules.keyName t = true)
    (children : List Shape) : ((s.lay t).withChildren children).pairs rules.keyName t = true := by
  have name : ((s.lay t).withChildren children).name = s.name := rfl
  exact h.pairs_of_key name (fun carries => Shape.key?_lay carries) pairs

/-! ## Absorbing -/

mutual

/-- All of the second section that the policy of the first one lets through is there already. -/
inductive Absorbs (rules : Rules) : Shape → Shape → Prop where
  | all {s t : Shape} :
    s.policy? rules = some .all →
    s.lay t = s →
    AbsorbsAll rules s.children t.children →
    Absorbs rules s t
  | attributes {s t : Shape} :
    s.policy? rules = some .attributes →
    s.lay t = s →
    Absorbs rules s t
  | sections {s t : Shape} :
    s.policy? rules = some .sections →
    AbsorbsAll rules s.children t.children →
    Absorbs rules s t
  | stop {s t : Shape} :
    s.policy? rules = some .stop →
    Absorbs rules s t

/-- Each of the second sections is absorbed by the one of the first sections that it is paired with.
-/
inductive AbsorbsAll (rules : Rules) : List Shape → List Shape → Prop where
  | nil {bs : List Shape} :
    AbsorbsAll rules bs []
  | cons {bs cs : List Shape} {b c : Shape} :
    bs.find? (·.pairs rules.keyName c) = some b →
    Absorbs rules b c →
    AbsorbsAll rules bs cs →
    AbsorbsAll rules bs (c :: cs)

end

/-- All sections are absorbed if each is by the first one that it pairs with. -/
lemma absorbsAll_iff {bs cs : List Shape} : AbsorbsAll rules bs cs ↔
    ∀ c ∈ cs, ∃ b, bs.find? (·.pairs rules.keyName c) = some b ∧ Absorbs rules b c := by
  induction cs with
  | nil => exact ⟨nofun, fun _ => .nil⟩
  | cons c cs ih =>
    rw [List.forall_mem_cons, ← ih]
    constructor
    · rintro ⟨⟩
      exact ⟨⟨_, ‹_›, ‹_›⟩, ‹_›⟩
    · rintro ⟨⟨b, found, absorbs⟩, rest⟩
      exact .cons found absorbs rest

/-- A well-keyed section is absorbed by a copy of itself, under whatever name. -/
lemma absorbs_copy (h : WellKeyed rules s) (name : String) :
    Absorbs rules (.mk name s.value s.attributes s.children) s := by
  induction s using Shape.ind generalizing name with
  | mk name' value attributes children ih =>
    have undeclared := (Shape.allAttributes_iff.1 h.undeclared).1
    refine .all (Shape.policy?_of_undeclared undeclared) (Shape.lay_self (.mk name _ _ _)) ?_
    refine absorbsAll_iff.2 fun c hc => ⟨c, ?_, ?_⟩
    · exact find?_pairs_self (fun x hx => h.child hx) (h.distinct _ (Shape.mem_sections_self _)) hc
    · have copy := ih c hc (h.child hc) c.name
      have same : Shape.mk c.name c.value c.attributes c.children = c := Shape.withChildren_self
      rwa [same] at copy

/-! ## Absorbing one section more -/

section

variable {bs pre post done : List Shape} {x y : Shape}

/-- Sections are absorbed as before if another one is changed. -/
lemma AbsorbsAll.set (absorbs : AbsorbsAll rules (pre ++ x :: post) done)
    (other : ∀ c ∈ done, x.pairs rules.keyName c = false ∧ y.pairs rules.keyName c = false) :
    AbsorbsAll rules (pre ++ y :: post) done := by
  rw [absorbsAll_iff] at absorbs ⊢
  intro c hc
  obtain ⟨hx, hy⟩ := other c hc
  have same : (pre ++ y :: post).find? (·.pairs rules.keyName c) =
      (pre ++ x :: post).find? (·.pairs rules.keyName c) := by
    rw [List.find?_append, List.find?_append, List.find?_cons_of_neg (by simp [hy]),
      List.find?_cons_of_neg (by simp [hx])]
  rw [same]
  exact absorbs c hc

/-- Sections are absorbed as before if another one comes last. -/
lemma AbsorbsAll.append (absorbs : AbsorbsAll rules bs done) :
    AbsorbsAll rules (bs ++ [y]) done := by
  rw [absorbsAll_iff] at absorbs ⊢
  intro c hc
  obtain ⟨b, found, absorbed⟩ := absorbs c hc
  exact ⟨b, by rw [List.find?_append, found, Option.some_or], absorbed⟩

/-- One more section that is absorbed comes last. -/
lemma AbsorbsAll.concat (absorbs : AbsorbsAll rules bs done)
    (found : bs.find? (·.pairs rules.keyName t) = some y) (last : Absorbs rules y t) :
    AbsorbsAll rules bs (done ++ [t]) := by
  rw [absorbsAll_iff] at absorbs ⊢
  intro c hc
  rcases List.mem_append.1 hc with hc | hc
  · exact absorbs c hc
  · obtain rfl := List.mem_singleton.1 hc
    exact ⟨y, found, last⟩

end

end ConfTree
