import ConfTree.Proofs.Text.Lowercase
import ConfTree.Proofs.Tree.Comparison

/-!
# Regrouped trees

A tree is regrouped when siblings with different names are interleaved in another way, while those
of one name keep their order. Regrouped trees are structurally equal
(`structurallyEqual_of_regrouped`): the comparison sorts siblings by their names in lower case, and
sorting is stable. It takes names for one that differ in the case of any letters, so siblings that
differ in the case of letters beyond ASCII are ruled out.
-/

namespace ConfTree

open ConfTree.Text

/-! ## Stable sorting -/

section

variable {α β : Type} {R : α → β → Prop} {name : α → String} {name' : β → String} {xs : List α}
  {ys : List β}

/-- The order of names is transitive. -/
lemma nameLe_trans (name : α → String) (a b c : α) (h : nameLe (name a) (name b) = true)
    (k : nameLe (name b) (name c) = true) : nameLe (name a) (name c) = true :=
  decide_eq_true (String.le_trans (of_decide_eq_true h) (of_decide_eq_true k))

/-- Of two names one is not behind the other. -/
lemma nameLe_total (name : α → String) (a b : α) :
    (nameLe (name a) (name b) || nameLe (name b) (name a)) = true := by
  simpa [nameLe] using String.le_total (lowercase (name a)) (lowercase (name b))

/-- Names that are not behind each other have one lower-case form. -/
lemma lowercase_of_nameLe {a b : String} (h : nameLe a b = true) (k : nameLe b a = true) :
    lowercase a = lowercase b :=
  String.le_antisymm (of_decide_eq_true h) (of_decide_eq_true k)

/-- The entry has a name with the given lower-case form. -/
def lowers (name : α → String) (form : String) (a : α) : Bool := lowercase (name a) == form

/-- A name has a form if this is its lower case. -/
lemma lowers_iff {form : String} {a : α} :
    lowers name form a = true ↔ lowercase (name a) = form := beq_iff_eq

/-- To sort by names leaves the entries of one lower-case form in their order. -/
lemma filter_mergeSort (name : α → String) (xs : List α) (form : String) :
    (xs.mergeSort fun a b => nameLe (name a) (name b)).filter (lowers name form) =
      xs.filter (lowers name form) := by
  have sorted : (xs.filter (lowers name form)).Pairwise
      fun a b => nameLe (name a) (name b) = true := by
    refine List.pairwise_of_forall_mem_list fun a ha b hb => decide_eq_true ?_
    have same := lowers_iff.1 (List.of_mem_filter ha)
    rw [← lowers_iff.1 (List.of_mem_filter hb)] at same
    exact same ▸ String.le_refl _
  have inside := List.sublist_mergeSort (nameLe_trans name) (nameLe_total name) sorted
    List.filter_sublist
  have kept := inside.filter (lowers name form)
  rw [List.filter_filter] at kept
  simp only [Bool.and_self] at kept
  refine (kept.eq_of_length ?_).symm
  exact ((List.mergeSort_perm xs _).filter (lowers name form)).length_eq.symm

/-- The head of a sorted list is not behind any entry. -/
lemma nameLe_head {x a : α} (sorted : (x :: xs).Pairwise fun a b => nameLe (name a) (name b) = true)
    (h : a ∈ x :: xs) : nameLe (name x) (name a) = true := by
  rcases List.mem_cons.1 h with rfl | h
  · exact decide_eq_true (String.le_refl _)
  · exact List.rel_of_pairwise_cons sorted h

/-- Sorted lists are related if their entries of each lower-case form are. -/
lemma forall₂_of_sorted (hx : xs.Pairwise fun a b => nameLe (name a) (name b) = true)
    (hy : ys.Pairwise fun a b => nameLe (name' a) (name' b) = true)
    (forms : ∀ form,
      List.Forall₂ R (xs.filter (lowers name form)) (ys.filter (lowers name' form))) :
    List.Forall₂ R xs ys := by
  induction xs generalizing ys with
  | nil =>
    cases ys with
    | nil => exact .nil
    | cons y ys => simpa [lowers] using forms (lowercase (name' y))
  | cons x xs ih =>
    cases ys with
    | nil => simpa [lowers] using forms (lowercase (name x))
    | cons y ys =>
      -- Each head has an entry of its form in the other list, so neither is behind the other.
      have same : lowercase (name x) = lowercase (name' y) := by
        have here := forms (lowercase (name x))
        have there := forms (lowercase (name' y))
        rw [List.filter_cons_of_pos (lowers_iff.2 rfl)] at here
        rw [List.filter_cons_of_pos (a := y) (lowers_iff.2 rfl)] at there
        obtain ⟨b, bs, -, -, eq⟩ := List.forall₂_cons_left_iff.1 here
        obtain ⟨a, as, -, -, eq'⟩ := List.forall₂_cons_right_iff.1 there
        obtain ⟨hb, form⟩ := List.mem_filter.1 (eq ▸ List.mem_cons_self)
        obtain ⟨ha, form'⟩ := List.mem_filter.1 (eq' ▸ List.mem_cons_self)
        have le := nameLe_head hy hb
        have le' := nameLe_head hx ha
        rw [nameLe, lowers_iff.1 form] at le
        rw [nameLe, lowers_iff.1 form'] at le'
        exact lowercase_of_nameLe le' le
      have both := forms (lowercase (name x))
      rw [List.filter_cons_of_pos (lowers_iff.2 rfl),
        List.filter_cons_of_pos (a := y) (lowers_iff.2 same.symm)] at both
      obtain ⟨heads, -⟩ := List.forall₂_cons.1 both
      refine .cons heads (ih hx.tail hy.tail fun form => ?_)
      have rest := forms form
      rw [List.filter_cons, List.filter_cons] at rest
      by_cases h : lowercase (name x) = form
      · rw [if_pos (lowers_iff.2 h), if_pos (lowers_iff.2 (same.symm.trans h))] at rest
        exact (List.forall₂_cons.1 rest).2
      · rwa [if_neg (mt lowers_iff.1 h), if_neg fun hy => h (same.trans (lowers_iff.1 hy))] at rest

/-- Among the names of a list, one lower-case form belongs to one name only. -/
def OneForm (name : α → String) (xs : List α) : Prop :=
  ∀ a ∈ xs, ∀ b ∈ xs, lowercase (name a) = lowercase (name b) → sameName (name a) (name b) = true

instance (name : α → String) (xs : List α) : Decidable (OneForm name xs) :=
  inferInstanceAs (Decidable (∀ a ∈ xs, ∀ b ∈ xs, lowercase (name a) = lowercase (name b) →
    sameName (name a) (name b) = true))

/-- The entries of each name are related. -/
def Grouped (R : α → β → Prop) (name : α → String) (name' : β → String) (xs : List α)
    (ys : List β) : Prop :=
  ∀ k, List.Forall₂ R (xs.filter fun a => sameName (name a) k)
    (ys.filter fun b => sameName (name' b) k)

/-- Every entry of the one list has an entry of its name in the other. -/
lemma Grouped.exists_left (groups : Grouped R name name' xs ys) {b : β} (hb : b ∈ ys) :
    ∃ a ∈ xs, sameName (name a) (name' b) = true := by
  have group := groups (name' b)
  cases left : xs.filter fun a => sameName (name a) (name' b) with
  | nil =>
    rw [left, List.forall₂_nil_left_iff] at group
    exact absurd (sameName_refl (name' b)) (List.filter_eq_nil_iff.1 group b hb)
  | cons a as =>
    have ha := List.mem_filter.1 (left ▸ List.mem_cons_self : a ∈ _)
    exact ⟨a, ha.1, ha.2⟩

/-- Lists whose entries of each name are related are related when they are sorted. -/
lemma Grouped.mergeSort (groups : Grouped R name name' xs ys) (apart : OneForm name xs) :
    List.Forall₂ R (xs.mergeSort fun a b => nameLe (name a) (name b))
      (ys.mergeSort fun a b => nameLe (name' a) (name' b)) := by
  refine forall₂_of_sorted (List.pairwise_mergeSort (nameLe_trans name) (nameLe_total name) xs)
    (List.pairwise_mergeSort (nameLe_trans name') (nameLe_total name') ys) fun form => ?_
  rw [filter_mergeSort, filter_mergeSort]
  by_cases found : ∃ a ∈ xs, lowercase (name a) = form
  · -- The entries of the form are those of the name of one of them.
    obtain ⟨a, ha, rfl⟩ := found
    have left : xs.filter (lowers name (lowercase (name a))) =
        xs.filter fun x => sameName (name x) (name a) := by
      refine List.filter_congr fun x hx => Bool.eq_iff_iff.2 ?_
      exact lowers_iff.trans ⟨apart x hx a ha, lowercase_of_sameName⟩
    have right : ys.filter (lowers name' (lowercase (name a))) =
        ys.filter fun y => sameName (name' y) (name a) := by
      refine List.filter_congr fun y hy => Bool.eq_iff_iff.2 ?_
      obtain ⟨x, hx, same⟩ := groups.exists_left hy
      refine lowers_iff.trans ⟨fun h => ?_, lowercase_of_sameName⟩
      have form := (lowercase_of_sameName same).trans h
      exact sameName_trans (sameName_symm same) (apart x hx a ha form)
    rw [left, right]
    exact groups (name a)
  · have left : xs.filter (lowers name form) = [] :=
      List.filter_eq_nil_iff.2 fun a ha h => found ⟨a, ha, lowers_iff.1 h⟩
    have right : ys.filter (lowers name' form) = [] := by
      refine List.filter_eq_nil_iff.2 fun b hb h => ?_
      obtain ⟨a, ha, same⟩ := groups.exists_left hb
      exact found ⟨a, ha, (lowercase_of_sameName same).trans (lowers_iff.1 h)⟩
    rw [left, right]
    exact .nil

end

/-! ## Regrouped trees -/

/-- Siblings whose names differ in case only differ in the case of ASCII letters only, in all
sections. -/
def Shape.OneForms (s : Shape) : Prop :=
  ∀ t ∈ s.sections, OneForm (·.1) t.attributes ∧ OneForm Shape.name t.children

instance (s : Shape) : Decidable s.OneForms :=
  inferInstanceAs (Decidable (∀ t ∈ s.sections,
    OneForm (·.1) t.attributes ∧ OneForm Shape.name t.children))

/-- The second tree is the first with siblings of different names interleaved in another way. The
names may change in the case of ASCII letters, and the values of attributes as it is given. -/
inductive Regrouped (becomes : Option String → Option String) : Shape → Shape → Prop where
  | mk {name name' value attributes attributes' children children'} :
    sameName name name' = true →
    Grouped (fun a b => becomes a.2 = b.2) Prod.fst Prod.fst attributes attributes' →
    (∀ k, List.Forall₂ (Regrouped becomes) (children.filter fun c => sameName c.name k)
      (children'.filter fun c => sameName c.name k)) →
    Regrouped becomes (.mk name value attributes children) (.mk name' value attributes' children')

/-- The section under another name. -/
def Shape.rename (s : Shape) (name : String) : Shape := .mk name s.value s.attributes s.children

/-- To give a section its own name is to leave it. -/
lemma Shape.rename_self (s : Shape) : s.rename s.name = s := by
  cases s
  rfl

/-- The name of the section itself has no siblings. -/
lemma Shape.OneForms.rename {s : Shape} (forms : s.OneForms) (name : String) :
    (s.rename name).OneForms := by
  intro t ht
  rcases List.mem_cons.1 ht with rfl | ht
  · exact forms s s.mem_sections_self
  · exact forms t (Shape.mem_sections_of_mem_descendants ht)

/-- Regrouped sections are regrouped under other names. -/
lemma Regrouped.rename {becomes : Option String → Option String} {s s' : Shape}
    {name name' : String} (h : Regrouped becomes s s') (same : sameName name name' = true) :
    Regrouped becomes (s.rename name) (s'.rename name') := by
  cases h with
  | mk _ attributes children => exact .mk same attributes children

section

variable {α β : Type} {R S : α → β → Prop} {name : α → String} {name' : β → String} {xs : List α}
  {ys : List β}

/-- Entries of one name are related by what follows from the relation for entries of the list. -/
lemma Grouped.imp (groups : Grouped R name name' xs ys)
    (h : ∀ a ∈ xs, ∀ b, sameName (name a) (name' b) = true → R a b → S a b) :
    Grouped S name name' xs ys := by
  intro k
  have left : ∀ a ∈ xs.filter fun a => sameName (name a) k, a ∈ xs ∧ sameName (name a) k = true :=
    fun a ha => List.mem_filter.1 ha
  have right : ∀ b ∈ ys.filter fun b => sameName (name' b) k, sameName (name' b) k = true :=
    fun b hb => (List.mem_filter.1 hb).2
  have both := ((List.forall₂_and_left _ _).2 ⟨left, groups k⟩).flip
  refine ((List.forall₂_and_left _ _).2 ⟨right, both⟩).flip.imp ?_
  rintro a b ⟨hb, ⟨ha, same⟩, related⟩
  exact h a ha b (sameName_trans same (sameName_symm hb)) related

/-- Members have one form if what is made of them has. -/
lemma OneForm.of_map {γ : Type} {f : γ → α} {us : List γ} (h : OneForm name (us.map f)) :
    OneForm (fun u => name (f u)) us := fun a ha b hb =>
  h (f a) (List.mem_map_of_mem ha) (f b) (List.mem_map_of_mem hb)

/-- Lists are grouped alike if what is made of them is. -/
lemma Grouped.of_map {γ δ : Type} {f : γ → α} {g : δ → β} {us : List γ} {vs : List δ}
    (groups : Grouped R name name' (us.map f) (vs.map g)) :
    Grouped (fun u v => R (f u) (g v)) (fun u => name (f u)) (fun v => name' (g v)) us vs := by
  intro k
  have group := groups k
  rwa [List.filter_map, List.filter_map, List.forall₂_map_left_iff,
    List.forall₂_map_right_iff] at group

end

namespace Subtree

variable {becomes : Option String → Option String}

/-- Trees are grouped one by one. -/
lemma groupedAll_eq_map (ts : List Subtree) : groupedAll ts = ts.map grouped := by
  induction ts with
  | nil => rfl
  | cons t ts ih => rw [groupedAll, ih, List.map_cons]

/-- Sections are sorted by their names, whether they are grouped before or after. -/
lemma groupedAll_mergeSort (ts : List Subtree) :
    (groupedAll ts).mergeSort (fun a b => nameLe a.name b.name) =
      (ts.mergeSort fun a b => nameLe a.name b.name).map grouped := by
  rw [groupedAll_eq_map]
  refine (List.map_mergeSort fun a _ b _ => ?_).symm
  cases a
  cases b
  rfl

/-- Attributes that agree one by one are compared as equal. -/
lemma sameAttributes_of_forall₂ {as bs : List Attribute}
    (h : List.Forall₂ (fun a b => sameName a.name b.name = true ∧
      nonEmpty? a.value = nonEmpty? b.value) as bs) : sameAttributes as bs = true := by
  induction h with
  | nil => rfl
  | cons first _ ih => simp [sameAttributes, first, ih]

/-- Trees that are equal one by one are compared as equal. -/
lemma sameShapes_of_forall₂ {ts us : List Subtree}
    (h : List.Forall₂ (fun t u => t.sameShape u = true) ts us) : sameShapes ts us = true := by
  induction h with
  | nil => rfl
  | cons first _ ih => simp [sameShapes, first, ih]

/-- Attributes whose groups agree agree when they are sorted. -/
lemma sameAttributes_grouped (blank : ∀ v, nonEmpty? (becomes v) = nonEmpty? v)
    {as bs : List Attribute} (forms : OneForm Prod.fst (as.map Attribute.pair))
    (groups : Grouped (fun a b => becomes a.2 = b.2) Prod.fst Prod.fst (as.map Attribute.pair)
      (bs.map Attribute.pair)) :
    sameAttributes (groupedAttributes as) (groupedAttributes bs) = true := by
  have agree : Grouped (fun a b : Attribute => sameName a.name b.name = true ∧
      nonEmpty? a.value = nonEmpty? b.value) Attribute.name Attribute.name as bs := by
    refine groups.of_map.imp fun a _ b same value => ⟨same, ?_⟩
    rw [← blank]
    exact congrArg nonEmpty? value
  exact sameAttributes_of_forall₂ (agree.mergeSort forms.of_map)

/-- Sections whose groups agree agree when they are sorted. -/
lemma sameShapes_grouped {S : Shape → Shape → Prop} {ts us : List Subtree}
    (forms : OneForm Shape.name (ts.map shape))
    (groups : Grouped S Shape.name Shape.name (ts.map shape) (us.map shape))
    (agree : ∀ t ∈ ts, ∀ u : Subtree, S t.shape u.shape → t.grouped.sameShape u.grouped = true) :
    sameShapes ((groupedAll ts).mergeSort fun a b => nameLe a.name b.name)
      ((groupedAll us).mergeSort fun a b => nameLe a.name b.name) = true := by
  have sections : Grouped (fun t u : Subtree => t.grouped.sameShape u.grouped = true)
      Subtree.name Subtree.name ts us := by
    have named : (fun t : Subtree => t.shape.name) = Subtree.name := funext name_shape
    have groups := groups.of_map.imp fun t ht u _ related => agree t ht u related
    rwa [named] at groups
  have forms : OneForm Subtree.name ts := by
    have forms := forms.of_map
    rwa [show (fun t : Subtree => t.shape.name) = Subtree.name from funext name_shape] at forms
  rw [groupedAll_mergeSort, groupedAll_mergeSort]
  refine sameShapes_of_forall₂ ?_
  rw [List.forall₂_map_left_iff, List.forall₂_map_right_iff]
  exact sections.mergeSort forms

mutual

/-- Regrouped sections agree when they are grouped. -/
lemma sameShape_of_regrouped (blank : ∀ v, nonEmpty? (becomes v) = nonEmpty? v) :
    ∀ (t u : Subtree), t.shape.OneForms → Regrouped becomes t.shape u.shape →
      t.grouped.sameShape u.grouped = true
  | .mk _ name value attributes children, .mk _ name' value' attributes' children', forms, h => by
    rw [shape, shapes_eq_map] at forms
    rw [shape, shape, shapes_eq_map, shapes_eq_map] at h
    obtain ⟨attributeForms, childForms⟩ := forms _ (Shape.mem_sections_self _)
    cases h with
    | mk names attributeGroups childGroups =>
      have attributesAgree := sameAttributes_grouped blank attributeForms attributeGroups
      have childrenAgree := sameShapes_grouped childForms childGroups fun t ht u related =>
        sameShape_of_regrouped_all blank children t ht u
          (fun s hs => forms s (List.mem_cons_of_mem _
            (Shape.mem_sectionsOf.2 ⟨_, List.mem_map_of_mem ht, hs⟩))) related
      rw [grouped, grouped, sameShape, Bool.and_eq_true_iff, Bool.and_eq_true_iff,
        Bool.and_eq_true_iff]
      exact ⟨⟨⟨names, beq_self_eq_true _⟩, attributesAgree⟩, childrenAgree⟩

/-- Of a list of sections, each agrees with what it is regrouped to. -/
lemma sameShape_of_regrouped_all (blank : ∀ v, nonEmpty? (becomes v) = nonEmpty? v) :
    ∀ (ts : List Subtree), ∀ t ∈ ts, ∀ u : Subtree, t.shape.OneForms →
      Regrouped becomes t.shape u.shape → t.grouped.sameShape u.grouped = true
  | [], _, ht, _ => by cases ht
  | s :: ts, t, ht, u => by
    rcases List.mem_cons.1 ht with h | h
    · rw [h]
      exact sameShape_of_regrouped blank s u
    · exact sameShape_of_regrouped_all blank ts t h u

end

end Subtree

/-- Sections whose shapes are regrouped are structurally equal. -/
lemma structurallyEqual_of_regrouped {becomes : Option String → Option String}
    (blank : ∀ v, nonEmpty? (becomes v) = nonEmpty? v) {conf conf' : Configuration}
    {x y : NodeId} {d e : NodeData} (hx : conf.live? x = some d) (hy : conf'.live? y = some e)
    (sec : d.kind = .sectionKind) (sec' : e.kind = .sectionKind) (forms : (conf.shape x).OneForms)
    (h : Regrouped becomes (conf.shape x) (conf'.shape y)) :
    structurallyEqual conf (some x) conf' (some y) = true := by
  have same := Subtree.sameShape_of_regrouped blank _ _ forms h
  rw [NodeData.kind_eq_sectionKind] at sec sec'
  simp [structurallyEqual, hx, hy, sec, sec', same]

end ConfTree
