import ConfTree.Proofs.Operation.Reachable
import ConfTree.Proofs.Tree.CanonicalForm

/-!
# Comparison by names

Structural equality looks at the entries of each name apart. The comparison goes through the sorted
entries of two nodes one by one (`alike_iff_sorted`), and since sorting is stable, this is to go
through those of each lower-case form in their order (`alike_iff_forms`). A form is as good as a
name where siblings whose names differ in case only differ in the case of ASCII letters only
(`alike_iff_grouped`). Neighbours of two forms can change places (`alike_of_exchange`).
-/

namespace ConfTree

open ConfTree.Text ConfTree.Configuration

/-! ## Sorted lists -/

section

variable {α β γ : Type} {R S : α → β → Prop} {name : α → String} {name' : β → String} {xs : List α}
  {ys : List β}

/-- Relations that agree on the members of two lists relate them alike. -/
lemma forall₂_congr_mem (h : ∀ a ∈ xs, ∀ b ∈ ys, R a b ↔ S a b) :
    List.Forall₂ R xs ys ↔ List.Forall₂ S xs ys := by
  rw [List.forall₂_iff_zip, List.forall₂_iff_zip]
  refine and_congr_right fun _ => forall₂_congr fun a b => forall_congr' fun both => ?_
  obtain ⟨ha, hb⟩ := List.of_mem_zip both
  exact h a ha b hb

/-- Filters that keep related entries together leave lists related. -/
lemma forall₂_filter {p : α → Bool} {q : β → Bool} (together : ∀ a b, R a b → p a = q b)
    (related : List.Forall₂ R xs ys) : List.Forall₂ R (xs.filter p) (ys.filter q) :=
  List.rel_filter (fun a b both => iff_of_eq (congrArg (· = true) (together a b both))) related

/-- Lists of what is seen of entries are equal when sorted if the sorted entries look alike. -/
lemma mergeSort_map_eq_iff {f : α → γ} {g : β → γ} {key : γ → String}
    (hf : ∀ a, key (f a) = fold (name a)) (hg : ∀ b, key (g b) = fold (name' b)) :
    ((xs.map f).mergeSort fun u v => nameLe (key u) (key v)) =
        ((ys.map g).mergeSort fun u v => nameLe (key u) (key v)) ↔
      List.Forall₂ (fun a b => f a = g b) (xs.mergeSort fun u v => nameLe (name u) (name v))
        (ys.mergeSort fun u v => nameLe (name' u) (name' v)) := by
  have left : (xs.mergeSort fun u v => nameLe (name u) (name v)).map f =
      (xs.map f).mergeSort fun u v => nameLe (key u) (key v) :=
    List.map_mergeSort fun u _ v _ => by rw [hf, hf, Shape.nameLe_fold]
  have right : (ys.mergeSort fun u v => nameLe (name' u) (name' v)).map g =
      (ys.map g).mergeSort fun u v => nameLe (key u) (key v) :=
    List.map_mergeSort fun u _ v _ => by rw [hg, hg, Shape.nameLe_fold]
  rw [← left, ← right, ← List.forall₂_eq_eq_eq, List.forall₂_map_left_iff,
    List.forall₂_map_right_iff]

/-- Sorted lists are related exactly when their entries of each lower-case form are, if related
entries are of one form. -/
lemma forall₂_mergeSort_iff (forms : ∀ a b, R a b → lowercase (name a) = lowercase (name' b)) :
    List.Forall₂ R (xs.mergeSort fun u v => nameLe (name u) (name v))
        (ys.mergeSort fun u v => nameLe (name' u) (name' v)) ↔
      ∀ form, List.Forall₂ R (xs.filter (lowers name form)) (ys.filter (lowers name' form)) := by
  constructor
  · intro related form
    rw [← filter_mergeSort name, ← filter_mergeSort name']
    exact forall₂_filter (fun a b both => by rw [lowers, lowers, forms a b both]) related
  · intro related
    refine forall₂_of_sorted (List.pairwise_mergeSort (nameLe_trans name) (nameLe_total name) xs)
      (List.pairwise_mergeSort (nameLe_trans name') (nameLe_total name') ys) fun form => ?_
    rw [filter_mergeSort, filter_mergeSort]
    exact related form

/-- The entries of a name are among those of its lower-case form. -/
lemma filter_sameName (name : α → String) (xs : List α) (k : String) :
    xs.filter (fun a => sameName (name a) k) =
      (xs.filter (lowers name (lowercase k))).filter fun a => sameName (name a) k := by
  rw [List.filter_filter]
  refine List.filter_congr fun a _ => ?_
  cases same : sameName (name a) k with
  | true => simp [lowers_iff.2 (lowercase_of_sameName same)]
  | false => rfl

/-- If the entries of each lower-case form are related, then those of each name are, if related
entries have one name. -/
lemma grouped_of_forms (names : ∀ a b, R a b → sameName (name a) (name' b) = true)
    (related : ∀ form,
      List.Forall₂ R (xs.filter (lowers name form)) (ys.filter (lowers name' form))) :
    Grouped R name name' xs ys := by
  intro k
  rw [filter_sameName name, filter_sameName name']
  exact forall₂_filter (fun a b both => sameName_congr (names a b both) k) (related (lowercase k))

/-- Neighbours that are not both kept can change places before a filter. -/
lemma filter_exchange {p : α → Bool} {u v : α} (h : p u = true → p v = true → False)
    (pre post : List α) :
    (pre ++ u :: v :: post).filter p = (pre ++ v :: u :: post).filter p := by
  rw [List.filter_append, List.filter_append, List.filter_cons, List.filter_cons, List.filter_cons,
    List.filter_cons]
  cases hu : p u with
  | false => rfl
  | true =>
    cases hv : p v with
    | false => rfl
    | true => exact (h hu hv).elim

end

/-! ## Nodes and their entries -/

/-- The nodes agree in all but their entries: in their kind, their name and their value. -/
def NodeData.Resembles (d e : NodeData) : Prop :=
  d.kind = e.kind ∧ sameName d.name e.name = true ∧ nonEmpty? d.value = nonEmpty? e.value

instance (d e : NodeData) : Decidable (d.Resembles e) := inferInstanceAs (Decidable (_ ∧ _ ∧ _))

section

variable {a b : Configuration} {x y : NodeId} {d e : NodeData}

/-- The shape of a node has its name. -/
lemma Configuration.name_shape_eq (conf : Configuration) (id : NodeId) :
    (conf.shape id).name = conf.nameOf id := by
  rw [shape, subtree]
  cases conf.nodes.size <;> rfl

/-- Structurally equal nodes have one name. -/
lemma Alike.sameName (h : Alike a b x y) : sameName (a.nameOf x) (b.nameOf y) = true := by
  cases hx : a.live? x with
  | none =>
    rw [alike_iff, canonical?, hx, Option.map_none, eq_comm, canonical?,
      Option.map_eq_none_iff] at h
    simp [nameOf, hx, h]
  | some d =>
    obtain ⟨e, -, -, form⟩ := h.live hx
    have names := congrArg Shape.name form
    rw [Shape.name_canonical, Shape.name_canonical, name_shape_eq, name_shape_eq] at names
    exact fold_eq_iff.1 names

/-- Structurally equal nodes have names of one lower-case form. -/
lemma Alike.lowers (h : Alike a b x y) (form : String) :
    lowers a.nameOf form x = lowers b.nameOf form y := by
  rw [ConfTree.lowers, ConfTree.lowers, lowercase_of_sameName h.sameName]

/-- Entries of one kind are structurally equal when they have one canonical form. -/
lemma alike_entry_iff (wfa : a.WellFormed) (wfb : b.WellFormed) (hx : a.live? x = some d)
    (hy : b.live? y = some e) {k : Kind} {c c' : NodeId} (hc : c ∈ d.entries k)
    (hc' : c' ∈ e.entries k) :
    Alike a b c c' ↔ (a.shape c).canonical = (b.shape c').canonical := by
  obtain ⟨u, hu, kind, -⟩ := wfa.listed x d k c hx hc
  obtain ⟨v, hv, kind', -⟩ := wfb.listed y e k c' hy hc'
  rw [Alike, structurallyEqual_live_iff hu hv]
  exact and_iff_right (kind.trans kind'.symm)

/-- The entries of a node, sorted by their names in lower case. -/
def Configuration.sorted (conf : Configuration) (ids : List NodeId) : List NodeId :=
  ids.mergeSort fun u v => nameLe (conf.nameOf u) (conf.nameOf v)

section

variable (wfa : a.WellFormed) (wfb : b.WellFormed) (hx : a.live? x = some d)
  (hy : b.live? y = some e)

include wfa wfb hx hy

/-- The attributes of two nodes look alike when they are sorted. -/
lemma alike_attributes_iff :
    (((d.entries .attributeKind).map a.pairOf).map Shape.foldedPair).mergeSort
          (fun u v => nameLe u.1 v.1) =
        (((e.entries .attributeKind).map b.pairOf).map Shape.foldedPair).mergeSort
          (fun u v => nameLe u.1 v.1) ↔
      List.Forall₂ (Alike a b) (a.sorted (d.entries .attributeKind))
        (b.sorted (e.entries .attributeKind)) := by
  rw [List.map_map, List.map_map]
  have named : ∀ (conf : Configuration) (id : NodeId),
      (Shape.foldedPair (conf.pairOf id)).1 = fold (conf.nameOf id) := fun _ _ => rfl
  refine (mergeSort_map_eq_iff (named a) (named b)).trans (forall₂_congr_mem fun c hc c' hc' => ?_)
  rw [List.mem_mergeSort] at hc hc'
  obtain ⟨u, hu, kind, -⟩ := wfa.listed x d _ c hx hc
  obtain ⟨v, hv, kind', -⟩ := wfb.listed y e _ c' hy hc'
  rw [alike_entry_iff wfa wfb hx hy hc hc', shape_attribute hu kind, shape_attribute hv kind']
  simp [Shape.canonical, Shape.canonicals, Shape.foldedPair, pairOf_eq hu, pairOf_eq hv]

/-- The child sections of two nodes look alike when they are sorted. -/
lemma alike_sections_iff :
    (Shape.canonicals ((d.entries .sectionKind).map a.shape)).mergeSort
          (fun u v => nameLe u.name v.name) =
        (Shape.canonicals ((e.entries .sectionKind).map b.shape)).mergeSort
          (fun u v => nameLe u.name v.name) ↔
      List.Forall₂ (Alike a b) (a.sorted (d.entries .sectionKind))
        (b.sorted (e.entries .sectionKind)) := by
  have named : ∀ (conf : Configuration) (id : NodeId),
      (conf.shape id).canonical.name = fold (conf.nameOf id) := fun conf id => by
    rw [Shape.name_canonical, name_shape_eq]
  rw [Shape.canonicals_eq_map, Shape.canonicals_eq_map, List.map_map, List.map_map]
  refine (mergeSort_map_eq_iff (named a) (named b)).trans (forall₂_congr_mem fun c hc c' hc' => ?_)
  rw [List.mem_mergeSort] at hc hc'
  exact (alike_entry_iff wfa wfb hx hy hc hc').symm

/-- Nodes are structurally equal when they agree themselves and their sorted entries are
structurally equal one by one. -/
lemma alike_iff_sorted : Alike a b x y ↔ d.Resembles e ∧
    ∀ k, List.Forall₂ (Alike a b) (a.sorted (d.entries k)) (b.sorted (e.entries k)) := by
  have kinds : ∀ {P : Kind → Prop}, (∀ k, P k) ↔ P .attributeKind ∧ P .sectionKind :=
    ⟨fun h => ⟨h _, h _⟩, fun h k => by cases k <;> simp [h]⟩
  rw [Alike, structurallyEqual_live_iff hx hy, shape_eq wfa hx, shape_eq wfb hy, Shape.canonical,
    Shape.canonical, Shape.mk.injEq, alike_attributes_iff wfa wfb hx hy,
    alike_sections_iff wfa wfb hx hy, kinds, NodeData.Resembles, fold_eq_iff]
  simp only [and_assoc]

/-- Nodes are structurally equal when they agree themselves and their entries of each lower-case
form are structurally equal one by one. -/
lemma alike_iff_forms : Alike a b x y ↔ d.Resembles e ∧ ∀ k form,
    List.Forall₂ (Alike a b) ((d.entries k).filter (lowers a.nameOf form))
      ((e.entries k).filter (lowers b.nameOf form)) := by
  rw [alike_iff_sorted wfa wfb hx hy]
  refine and_congr_right fun _ => forall_congr' fun k => ?_
  exact forall₂_mergeSort_iff fun c c' same => lowercase_of_sameName same.sameName

/-- Nodes are structurally equal if they agree themselves and their entries are structurally equal
one by one. -/
lemma alike_of_entries (own : d.Resembles e)
    (entries : ∀ k, List.Forall₂ (Alike a b) (d.entries k) (e.entries k)) : Alike a b x y :=
  (alike_iff_forms wfa wfb hx hy).2 ⟨own, fun k form =>
    forall₂_filter (fun _ _ same => same.lowers form) (entries k)⟩

/-- Attributes of one name and one value are structurally equal. -/
lemma alike_of_attributes (own : d.Resembles e) (attr : d.kind = .attributeKind) :
    Alike a b x y := by
  refine alike_of_entries wfa wfb hx hy own fun k => ?_
  rw [NodeData.entries_of_attribute attr, NodeData.entries_of_attribute (own.1.symm.trans attr)]
  exact .nil

/-- The entries of each name of structurally equal nodes are structurally equal one by one. -/
lemma Alike.grouped (h : Alike a b x y) (k : Kind) :
    Grouped (Alike a b) a.nameOf b.nameOf (d.entries k) (e.entries k) :=
  grouped_of_forms (fun _ _ same => same.sameName) (((alike_iff_forms wfa wfb hx hy).1 h).2 k)

/-- Where a lower-case form belongs to one name only, nodes are structurally equal when they agree
themselves and their entries of each name are structurally equal one by one. -/
lemma alike_iff_grouped (apart : ∀ k, OneForm a.nameOf (d.entries k)) :
    Alike a b x y ↔ d.Resembles e ∧
      ∀ k, Grouped (Alike a b) a.nameOf b.nameOf (d.entries k) (e.entries k) := by
  constructor
  · intro h
    exact ⟨((alike_iff_forms wfa wfb hx hy).1 h).1, h.grouped wfa wfb hx hy⟩
  · rintro ⟨own, groups⟩
    exact (alike_iff_sorted wfa wfb hx hy).2 ⟨own, fun k => (groups k).mergeSort (apart k)⟩

/-- Two neighbours among the entries of a kind can change places if their names have different
lower-case forms. -/
lemma alike_of_exchange {k : Kind} {pre post : List NodeId} {u v : NodeId}
    (entries : d.entries k = pre ++ u :: v :: post)
    (apart : lowercase (a.nameOf u) ≠ lowercase (a.nameOf v)) (own : d.Resembles e)
    (others : ∀ l, l ≠ k → List.Forall₂ (Alike a b) (d.entries l) (e.entries l))
    (exchanged : List.Forall₂ (Alike a b) (pre ++ v :: u :: post) (e.entries k)) :
    Alike a b x y := by
  refine (alike_iff_forms wfa wfb hx hy).2 ⟨own, fun l form => ?_⟩
  by_cases here : l = k
  · subst here
    rw [entries, filter_exchange fun hu hv =>
      apart ((lowers_iff.1 hu).trans (lowers_iff.1 hv).symm)]
    exact forall₂_filter (fun _ _ same => same.lowers form) exchanged
  · exact forall₂_filter (fun _ _ same => same.lowers form) (others l here)

end

/-- Nodes of reachable configurations are structurally equal exactly when they agree in their kind,
their name and their value, and their entries of each lower-case form are structurally equal one by
one. Then their entries of each name are too, and where siblings whose names differ in case only
differ in the case of ASCII letters only, this is enough. If the one node has the entries of the
other with two neighbours of different forms in each other's place, then no comparison tells them
apart. -/
theorem structurallyEqual_entries (ha : a.Reachable) (hb : b.Reachable) (hx : a.live? x = some d)
    (hy : b.live? y = some e) :
    (structurallyEqual a (some x) b (some y) = true ↔ d.Resembles e ∧
      ∀ k form, List.Forall₂ (Alike a b) ((d.entries k).filter (lowers a.nameOf form))
        ((e.entries k).filter (lowers b.nameOf form))) ∧
      (structurallyEqual a (some x) b (some y) = true →
        ∀ k, Grouped (Alike a b) a.nameOf b.nameOf (d.entries k) (e.entries k)) ∧
      ((∀ k, OneForm a.nameOf (d.entries k)) →
        (structurallyEqual a (some x) b (some y) = true ↔ d.Resembles e ∧
          ∀ k, Grouped (Alike a b) a.nameOf b.nameOf (d.entries k) (e.entries k))) ∧
      ∀ k pre u v post, d.entries k = pre ++ u :: v :: post →
        lowercase (a.nameOf u) ≠ lowercase (a.nameOf v) → d.Resembles e →
        (∀ l, l ≠ k → List.Forall₂ (Alike a b) (d.entries l) (e.entries l)) →
        List.Forall₂ (Alike a b) (pre ++ v :: u :: post) (e.entries k) →
        ∀ c z, structurallyEqual b (some y) c z = structurallyEqual a (some x) c z := by
  have wfa := ha.wellFormed
  have wfb := hb.wellFormed
  refine ⟨alike_iff_forms wfa wfb hx hy, fun same => Alike.grouped wfa wfb hx hy same,
    alike_iff_grouped wfa wfb hx hy, ?_⟩
  intro k pre u v post entries apart own others exchanged c z
  have same := alike_iff.1 (alike_of_exchange wfa wfb hx hy entries apart own others exchanged)
  rw [Bool.eq_iff_iff, structurallyEqual_iff, structurallyEqual_iff, Option.bind_some,
    Option.bind_some, same]

/-- Two attributes with names beyond ASCII change places, and one of them changes the case of an
ASCII letter. -/
theorem structurallyEqual_entries_exchanged :
    let a := (withRoot "base").operateAll
      [(.bare, .addAttribute 0 "Größe" none), (.bare, .addAttribute 0 "ÄRGER" (some "1"))]
    let b := (withRoot "BASE").operateAll
      [(.bare, .addAttribute 0 "Ärger" (some "1")), (.bare, .addAttribute 0 "größe" (some ""))]
    structurallyEqual b (some root) a (some root) =
      structurallyEqual a (some root) a (some root) := by
  intro a b
  have ha : a.Reachable := (Reachable.withRoot "base").operateAll _ (by simp [Operation.others])
  have hb : b.Reachable := (Reachable.withRoot "BASE").operateAll _ (by simp [Operation.others])
  have hx : a.live? root = some ⟨"base", none, none, .lists #[] #[1, 2], true, false⟩ := by
    decide +kernel
  have hy : b.live? root = some ⟨"BASE", none, none, .lists #[] #[1, 2], true, false⟩ := by
    decide +kernel
  refine (structurallyEqual_entries ha hb hx hy).2.2.2 .attributeKind [] 1 2 [] rfl
    (by decide +kernel) (by decide +kernel) ?_ ?_ a (some root)
  · intro l hl
    cases l with
    | sectionKind => exact .nil
    | attributeKind => exact (hl rfl).elim
  · exact .cons (by decide +kernel) (.cons (by decide +kernel) .nil)

/-- Two siblings whose names differ in the case of a letter beyond ASCII have different names, and
to exchange them is seen, although the entries of each name stay as they were. -/
theorem not_structurallyEqual_exchanged :
    let a := (withRoot "base").operateAll
      [(.bare, .addAttribute 0 "Ä" none), (.bare, .addAttribute 0 "ä" none)]
    let b := (withRoot "base").operateAll
      [(.bare, .addAttribute 0 "ä" none), (.bare, .addAttribute 0 "Ä" none)]
    a.Reachable ∧ b.Reachable ∧ sameName "Ä" "ä" = false ∧
      (∃ d e, a.live? root = some d ∧ b.live? root = some e ∧ d.Resembles e ∧
        ∀ k, Grouped (Alike a b) a.nameOf b.nameOf (d.entries k) (e.entries k)) ∧
      structurallyEqual a (some root) b (some root) = false := by
  intro a b
  have ha : a.Reachable := (Reachable.withRoot "base").operateAll _ (by simp [Operation.others])
  have hb : b.Reachable := (Reachable.withRoot "base").operateAll _ (by simp [Operation.others])
  have hx : a.live? root = some ⟨"base", none, none, .lists #[] #[1, 2], true, false⟩ := by
    decide +kernel
  have hy : b.live? root = some ⟨"base", none, none, .lists #[] #[1, 2], true, false⟩ := by
    decide +kernel
  have apart : sameName "Ä" "ä" = false := by decide +kernel
  refine ⟨ha, hb, apart, ⟨_, _, hx, hy, by decide +kernel, fun kind => ?_⟩, ?_⟩
  · cases kind with
    | sectionKind => exact fun _ => .nil
    | attributeKind =>
      have capital : Alike a b 1 2 := by decide +kernel
      have small : Alike a b 2 1 := by decide +kernel
      have names : a.nameOf 1 = "Ä" ∧ a.nameOf 2 = "ä" ∧ b.nameOf 1 = "ä" ∧ b.nameOf 2 = "Ä" := by
        decide +kernel
      -- No name is that of both attributes, so each group holds one pair at most.
      intro k
      change List.Forall₂ (Alike a b) ([1, 2].filter _) ([1, 2].filter _)
      cases hk : sameName "Ä" k with
      | true =>
        have other : sameName "ä" k = false := by
          rw [← sameName_congr_right hk, sameName_comm]
          exact apart
        simp [names, hk, other, capital]
      | false =>
        cases hk' : sameName "ä" k with
        | true => simp [names, hk, hk', small]
        | false => simp [names, hk, hk']
  · rw [Bool.eq_false_iff]
    intro same
    -- Both attributes have one lower-case form, so they are compared in their order.
    have related := ((alike_iff_forms ha.wellFormed hb.wellFormed hx hy).1 same).2
      .attributeKind "ä"
    have left : [1, 2].filter (lowers a.nameOf "ä") = [1, 2] := by decide +kernel
    have right : [1, 2].filter (lowers b.nameOf "ä") = [1, 2] := by decide +kernel
    change List.Forall₂ (Alike a b) ([1, 2].filter _) ([1, 2].filter _) at related
    rw [left, right, List.forall₂_cons] at related
    exact absurd related.1 (by decide +kernel)

end

end ConfTree
