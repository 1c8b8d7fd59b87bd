import ConfTree.Evaluation.Template
import ConfTree.Merge.Match
import ConfTree.Proofs.Merge.Shape

/-!
# Uniformly keyed layers

`Uniform` states when trees can be merged as layers: no section declares a policy, all keys are
plain texts, sections of one name all have a key or none has, and no two siblings have the same name
and the same key. `Fits` is the same condition on a single shape, with the names of the keyed
sections given from outside, so that it can be carried through a merge (`Fits.merge`).
-/

namespace ConfTree

open ConfTree.Text

namespace Rules

/-- The name of the match attribute, as it is looked for. -/
def keyName (rules : Rules) : String := trim rules.matchAttribute

/-- The name of the policy attribute, as it is looked for. -/
def policyName (rules : Rules) : String := trim rules.policyAttribute

end Rules

/-- The attribute declares no policy, and if it is a key it is a text without references. -/
def PlainAttribute (rules : Rules) (a : String × Option String) : Prop :=
  sameName a.1 rules.policyName = false ∧
    (sameName a.1 rules.keyName = true → ∃ v ∈ a.2, hasReference v.toList = false)

/-- The trees are uniformly keyed layers. -/
structure Uniform (rules : Rules) (trees : List Shape) : Prop where
  /-- No section has a policy attribute. -/
  policies : ∀ s ∈ trees, ∀ t ∈ s.sections, ∀ a ∈ t.attributes,
    sameName a.1 rules.policyName = false
  /-- The values of match attributes are present and have no references. -/
  keys : ∀ s ∈ trees, ∀ t ∈ s.sections, ∀ a ∈ t.attributes, sameName a.1 rules.keyName = true →
    ∃ v ∈ a.2, hasReference v.toList = false
  /-- Of the sections of one name, roots aside, all have the match attribute or none has. -/
  keyed : ∀ s ∈ trees, ∀ x ∈ s.descendants, ∀ t ∈ trees, ∀ y ∈ t.descendants,
    sameName x.name y.name = true → x.carries rules.keyName = y.carries rules.keyName
  /-- No two siblings have the same name and the same value of the first match attribute. -/
  distinct : ∀ s ∈ trees, ∀ t ∈ s.sections,
    t.children.Pairwise fun x y => x.agrees rules.keyName y = false

instance (rules : Rules) (trees : List Shape) : Decidable (Uniform rules trees) :=
  decidable_of_iff
    ((∀ s ∈ trees, ∀ t ∈ s.sections, ∀ a ∈ t.attributes, sameName a.1 rules.policyName = false) ∧
      (∀ s ∈ trees, ∀ t ∈ s.sections, ∀ a ∈ t.attributes,
        sameName a.1 rules.keyName = true → ∃ v ∈ a.2, hasReference v.toList = false) ∧
      (∀ s ∈ trees, ∀ x ∈ s.descendants, ∀ t ∈ trees, ∀ y ∈ t.descendants,
        sameName x.name y.name = true → x.carries rules.keyName = y.carries rules.keyName) ∧
      ∀ s ∈ trees, ∀ t ∈ s.sections,
        t.children.Pairwise fun x y => x.agrees rules.keyName y = false)
    ⟨fun ⟨policies, keys, keyed, distinct⟩ => ⟨policies, keys, keyed, distinct⟩,
      fun h => ⟨h.policies, h.keys, h.keyed, h.distinct⟩⟩

/-- The shape can take part in a merge in which the sections of the names `keyed` have keys. -/
inductive Fits (rules : Rules) (keyed : String → Prop) : Shape → Prop where
  | mk {name value attributes children} :
    (∀ a ∈ attributes, PlainAttribute rules a) →
    (∀ c ∈ children, c.carries rules.keyName = true ↔ keyed c.name) →
    (∀ c ∈ children, Fits rules keyed c) →
    (children.Pairwise fun x y => x.agrees rules.keyName y = false) →
    Fits rules keyed (.mk name value attributes children)

/-- The shapes can be the child sections in such a merge. -/
structure FitsAll (rules : Rules) (keyed : String → Prop) (children : List Shape) : Prop where
  carried : ∀ c ∈ children, c.carries rules.keyName = true ↔ keyed c.name
  fits : ∀ c ∈ children, Fits rules keyed c
  distinct : children.Pairwise fun x y => x.agrees rules.keyName y = false

/-- The names of the keyed sections of the trees. -/
def KeyedIn (rules : Rules) (trees : List Shape) (name : String) : Prop :=
  ∃ s ∈ trees, ∃ t ∈ s.descendants, sameName t.name name = true ∧ t.carries rules.keyName = true

variable {rules : Rules} {keyed : String → Prop} {trees : List Shape} {s t : Shape}

/-- A shape fits if each of its sections does. -/
lemma fits_of_sections (plain : ∀ t ∈ s.sections, ∀ a ∈ t.attributes, PlainAttribute rules a)
    (hkeyed : ∀ t ∈ s.descendants, t.carries rules.keyName = true ↔ keyed t.name)
    (distinct : ∀ t ∈ s.sections, t.children.Pairwise fun x y => x.agrees rules.keyName y = false) :
    Fits rules keyed s := by
  induction s using Shape.ind with
  | mk name value attributes children ih =>
    have inside : ∀ {c t : Shape}, c ∈ children → t ∈ c.sections →
        t ∈ (Shape.mk name value attributes children).descendants :=
      fun hc ht => Shape.mem_sectionsOf.2 ⟨_, hc, ht⟩
    refine .mk (plain _ List.mem_cons_self) ?_ ?_ (distinct _ List.mem_cons_self)
    · exact fun c hc => hkeyed c (inside hc c.mem_sections_self)
    · intro c hc
      refine ih c hc ?_ ?_ ?_
      · exact fun t ht => plain t (Shape.mem_sections_of_mem_descendants (inside hc ht))
      · exact fun t ht => hkeyed t (inside hc (Shape.mem_sections_of_mem_descendants ht))
      · exact fun t ht => distinct t (Shape.mem_sections_of_mem_descendants (inside hc ht))

/-- Each of some uniformly keyed layers fits. -/
lemma Uniform.fits (h : Uniform rules trees) (hs : s ∈ trees) :
    Fits rules (KeyedIn rules trees) s := by
  refine fits_of_sections ?_ ?_ (h.distinct s hs)
  · exact fun t ht a ha => ⟨h.policies s hs t ht a ha, h.keys s hs t ht a ha⟩
  · intro t ht
    constructor
    · exact fun carries => ⟨s, hs, t, ht, sameName_refl _, carries⟩
    · rintro ⟨s', hs', t', ht', same, carries⟩
      rw [← h.keyed s' hs' t' ht' s hs t ht same, carries]

/-- Names that are the same in any ASCII case are keyed alike. -/
lemma keyedIn_respects {x y : String} (h : sameName x y = true) :
    KeyedIn rules trees x ↔ KeyedIn rules trees y := by
  constructor
  · rintro ⟨s, hs, t, ht, same, carries⟩
    exact ⟨s, hs, t, ht, sameName_trans same h, carries⟩
  · rintro ⟨s, hs, t, ht, same, carries⟩
    exact ⟨s, hs, t, ht, sameName_trans same (sameName_symm h), carries⟩

/-- A section has the match attribute if a first one is found. -/
lemma carries_eq (keyName : String) (s : Shape) : s.carries keyName =
    (s.attributes.find? fun a => sameName a.1 keyName).isSome := by
  rw [Shape.carries, Bool.eq_iff_iff, List.any_eq_true, List.find?_isSome]

/-- A section of the merge of two sections has the match attribute if one of them has. -/
lemma carries_merge (keyName : String) (s t : Shape) :
    (s.merge keyName t).carries keyName = (s.carries keyName || t.carries keyName) := by
  rw [carries_eq, carries_eq, carries_eq, Shape.find?_attributes_merge]
  cases s.attributes.find? fun a => sameName a.1 keyName <;> simp [pairUp]

/-- Merging shapes that fit gives one that fits. -/
lemma Fits.merge (respects : ∀ x y, sameName x y = true → (keyed x ↔ keyed y))
    (hs : Fits rules keyed s) (ht : Fits rules keyed t) :
    Fits rules keyed (s.merge rules.keyName t) := by
  induction hs generalizing t with
  | @mk name value attributes children plain carried fits distinct ih =>
    obtain ⟨plain', carried', fits', distinct'⟩ := ht
    rw [Shape.merge, Shape.mergeAll_eq]
    refine .mk ?_ ?_ ?_ (Shape.classes_sections.pairwise_overlay distinct distinct')
    · -- A combined attribute has the name of the one and the value of the other.
      intro a ha
      rcases mem_overlay ha with ha | ha | ⟨x, hx, y, hy, same, rfl⟩
      · exact plain a ha
      · exact plain' a ha
      · exact ⟨(plain x hx).1, fun key => (plain' y hy).2 (sameName_trans (sameName_symm same) key)⟩
    · -- Two sections that are combined have the same name, so both have a key or none has.
      intro c hc
      rcases mem_overlay hc with hc | hc | ⟨x, hx, y, hy, same, rfl⟩
      · exact carried c hc
      · exact carried' c hc
      · rw [Shape.agrees, Bool.and_eq_true] at same
        rw [carries_merge, Bool.or_eq_true, carried x hx, carried' y hy, Shape.name_merge,
          ← respects _ _ same.1, or_self]
    · intro c hc
      rcases mem_overlay hc with hc | hc | ⟨x, hx, y, hy, -, rfl⟩
      · exact fits c hc
      · exact fits' c hc
      · exact ih x hx (fits' y hy)

/-- The attributes of a section that fits are plain. -/
lemma Fits.plain (h : Fits rules keyed s) : ∀ a ∈ s.attributes, PlainAttribute rules a := by
  cases h with
  | mk plain => exact plain

/-- The child sections of a section that fits do so, too. -/
lemma Fits.all (h : Fits rules keyed s) : FitsAll rules keyed s.children := by
  cases h with
  | mk _ carried fits distinct => exact ⟨carried, fits, distinct⟩

/-- The child sections of a merge fit if those of both shapes do. -/
lemma FitsAll.mergeAll (respects : ∀ x y, sameName x y = true → (keyed x ↔ keyed y))
    {xs ys : List Shape} (hx : FitsAll rules keyed xs) (hy : FitsAll rules keyed ys) :
    FitsAll rules keyed (Shape.mergeAll rules.keyName xs ys) := by
  have section' : ∀ {cs : List Shape}, FitsAll rules keyed cs →
      Fits rules keyed (.mk "" none [] cs) :=
    fun h => .mk (by simp) h.carried h.fits h.distinct
  exact ((section' hx).merge respects (section' hy)).all

/-- A section without a match attribute has no key. -/
lemma key?_of_not_carries {keyName : String} (h : s.carries keyName = false) :
    s.key? keyName = none := by
  rw [carries_eq, Option.isSome_eq_false_iff, Option.isNone_iff_eq_none] at h
  rw [Shape.key?, h]
  rfl

/-- A plain section with a match attribute has a key. -/
lemma Fits.key?_of_carries (h : Fits rules keyed s) (carries : s.carries rules.keyName = true) :
    ∃ v, s.key? rules.keyName = some v := by
  rw [carries_eq, Option.isSome_iff_exists] at carries
  obtain ⟨a, ha⟩ := carries
  have named := List.find?_some ha
  obtain ⟨v, hv, -⟩ := (h.plain a (List.mem_of_find?_eq_some ha)).2 named
  exact ⟨v, by rw [Shape.key?, ha, Option.bind_some, hv]⟩

/-- Some of the child sections fit if all do. -/
lemma FitsAll.left {xs ys : List Shape} (h : FitsAll rules keyed (xs ++ ys)) :
    FitsAll rules keyed xs :=
  ⟨fun c hc => h.carried c (List.mem_append_left _ hc),
    fun c hc => h.fits c (List.mem_append_left _ hc), (List.pairwise_append.1 h.distinct).1⟩

end ConfTree
