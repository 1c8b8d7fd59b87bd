import ConfTree.Proofs.Document.RoundTrip
import Mathlib

/-!
# Values under the reserved key

The value of a section shares its table with entries whose names users choose. A table is read back
as the section that it was written of if, and only if, the reserved key stands for values alone
(`read_write_unmistakable`). For the one direction the nodes are counted. Folding loses none
(`nodesUnder_sectionFields`), the reader takes a field under the reserved key for a value, so it
loses the nodes in it, and the comparison of two sections sees how many nodes they have
(`size_of_structurallyEqual`).
-/

namespace ConfTree

open ConfTree.Configuration ConfTree.Text

/-! ## Sizes of shapes -/

namespace Shape

mutual

/-- The number of nodes of a shape. -/
def size : Shape → Nat
  | .mk _ _ attributes children => attributes.length + sizes children + 1

/-- The number of nodes of shapes. -/
def sizes : List Shape → Nat
  | [] => 0
  | s :: ss => s.size + sizes ss

end

/-- The size of shapes is the sum of their sizes. -/
lemma sizes_eq (ss : List Shape) : sizes ss = (ss.map size).sum := by
  induction ss with
  | nil => rfl
  | cons s ss ih => rw [sizes, ih, List.map_cons, List.sum_cons]

/-- Sizes add up. -/
lemma sizes_append (ss ss' : List Shape) : sizes (ss ++ ss') = sizes ss + sizes ss' := by
  rw [sizes_eq, sizes_eq, sizes_eq, List.map_append, List.sum_append]

/-- A name does not count. -/
lemma size_rename (s : Shape) (name : String) : (s.rename name).size = s.size := by
  cases s
  rfl

end Shape

namespace Subtree

/-- Lists of the same attributes have the same length. -/
lemma length_of_sameAttributes {as bs : List Attribute} (h : sameAttributes as bs = true) :
    as.length = bs.length := by
  induction as generalizing bs with
  | nil =>
    cases bs with
    | nil => rfl
    | cons b bs => cases h
  | cons a as ih =>
    cases bs with
    | nil => cases h
    | cons b bs =>
      rw [sameAttributes, Bool.and_eq_true] at h
      rw [List.length_cons, List.length_cons, ih h.2]

mutual

/-- Sections that agree have as many nodes. -/
lemma size_of_sameShape : ∀ {t u : Subtree}, t.sameShape u = true → t.shape.size = u.shape.size
  | .mk _ name value attributes children, .mk _ name' value' attributes' children', h => by
    rw [sameShape, Bool.and_eq_true, Bool.and_eq_true] at h
    rw [shape, shape, Shape.size, Shape.size, List.length_map, List.length_map,
      length_of_sameAttributes h.1.2, sizes_of_sameShapes h.2]
    rfl

/-- Trees of the same shapes have the same size. -/
lemma sizes_of_sameShapes : ∀ {ts us : List Subtree}, sameShapes ts us = true →
    Shape.sizes (shapes ts) = Shape.sizes (shapes us)
  | [], [], _ => rfl
  | [], _ :: _, h => by cases h
  | _ :: _, [], h => by cases h
  | t :: ts, u :: us, h => by
    rw [sameShapes, Bool.and_eq_true] at h
    rw [shapes, shapes, Shape.sizes, Shape.sizes, size_of_sameShape h.1, sizes_of_sameShapes h.2]

end

mutual

/-- To group siblings leaves as many nodes. -/
lemma size_grouped : ∀ t : Subtree, t.grouped.shape.size = t.shape.size
  | .mk _ name value attributes children => by
    have sorted := ((List.mergeSort_perm (groupedAll children) fun a b =>
      nameLe a.name b.name).map fun t => t.shape.size).sum_eq
    rw [grouped, shape, shape, Shape.size, Shape.size, List.length_map, List.length_map,
      groupedAttributes, List.length_mergeSort, ← sizes_groupedAll children, shapes_eq_map,
      shapes_eq_map, Shape.sizes_eq, Shape.sizes_eq, List.map_map, List.map_map]
    exact congrArg (attributes.length + · + 1) sorted

/-- Grouping the entries of trees keeps their size. -/
lemma sizes_groupedAll : ∀ ts : List Subtree,
    Shape.sizes (shapes (groupedAll ts)) = Shape.sizes (shapes ts)
  | [] => rfl
  | t :: ts => by
    rw [groupedAll, shapes, shapes, Shape.sizes, Shape.sizes, size_grouped t, sizes_groupedAll ts]

end

end Subtree

/-- Sections that are structurally equal have as many nodes. -/
lemma size_of_structurallyEqual {conf conf' : Configuration} {x y : NodeId}
    (sec : conf.isSection x = true) (sec' : conf'.isSection y = true)
    (h : structurallyEqual conf (some x) conf' (some y) = true) :
    (conf.shape x).size = (conf'.shape y).size := by
  obtain ⟨d, live, kind⟩ := isSection_iff.1 sec
  obtain ⟨e, live', kind'⟩ := isSection_iff.1 sec'
  rw [NodeData.kind_eq_sectionKind] at kind kind'
  simp only [structurallyEqual, Option.bind_some, live, live', kind, kind', Bool.and_self, if_true,
    Option.getD_some] at h
  have same := Subtree.size_of_sameShape h
  rwa [Subtree.size_grouped, Subtree.size_grouped] at same

namespace Document

variable {σ : Type} {r : Reading σ} {ofText : Option String → σ}
  {becomes : Option String → Option String} {fields fields' : List (String × Data σ)}

/-! ## Nodes in tables -/

mutual

/-- The number of nodes that data are read as. A field under the reserved key is read as none. -/
def Data.nodes : Data σ → Nat
  | .scalar _ => 1
  | .array items => nodesIn items
  | .table fields => nodesOf fields + 1

/-- The number of nodes that items are read as. -/
def nodesIn : List (Data σ) → Nat
  | [] => 0
  | item :: items => item.nodes + nodesIn items

/-- The number of nodes that fields are read as. -/
def nodesOf : List (String × Data σ) → Nat
  | [] => 0
  | (key, data) :: rest => (if key = sectionValueKey then 0 else data.nodes) + nodesOf rest

end

/-- The number of nodes that fields would be read as if no key were reserved. -/
def nodesUnder (fields : List (String × Data σ)) : Nat := (fields.map (·.2.nodes)).sum

/-- The nodes in items are the sum of the nodes of each. -/
lemma nodesIn_eq (items : List (Data σ)) : nodesIn items = (items.map Data.nodes).sum := by
  induction items with
  | nil => rfl
  | cons item items ih => rw [nodesIn, ih, List.map_cons, List.sum_cons]

/-- The nodes of items add up. -/
lemma nodesIn_append (items items' : List (Data σ)) :
    nodesIn (items ++ items') = nodesIn items + nodesIn items' := by
  rw [nodesIn_eq, nodesIn_eq, nodesIn_eq, List.map_append, List.sum_append]

/-- The nodes of a value are those of its items. -/
lemma nodesIn_items (data : Data σ) : nodesIn data.items = data.nodes := by
  cases data <;> simp [Data.items, nodesIn, Data.nodes]

/-- The nodes of fields add up. -/
lemma nodesUnder_append (fields fields' : List (String × Data σ)) :
    nodesUnder (fields ++ fields') = nodesUnder fields + nodesUnder fields' := by
  rw [nodesUnder, nodesUnder, nodesUnder, List.map_append, List.sum_append]

/-- The nodes under the reserved key are those that are not read. -/
lemma nodesOf_add (fields : List (String × Data σ)) :
    nodesOf fields + nodesUnder (fields.filter (·.1 = sectionValueKey)) = nodesUnder fields := by
  induction fields with
  | nil => rfl
  | cons f fields ih =>
    obtain ⟨key, data⟩ := f
    by_cases reserved : key = sectionValueKey
    · rw [List.filter_cons_of_pos (by simp [reserved]), nodesOf, if_pos reserved]
      simp only [nodesUnder, List.map_cons, List.sum_cons] at ih ⊢
      omega
    · rw [List.filter_cons_of_neg (by simp [reserved]), nodesOf, if_neg reserved]
      simp only [nodesUnder, List.map_cons, List.sum_cons] at ih ⊢
      omega

/-- The order of fields does not count. -/
lemma nodesOf_perm (order : fields.Perm fields') : nodesOf fields = nodesOf fields' := by
  have all : nodesUnder fields = nodesUnder fields' := (order.map _).sum_eq
  have reserved : nodesUnder (fields.filter (·.1 = sectionValueKey)) =
      nodesUnder (fields'.filter (·.1 = sectionValueKey)) := ((order.filter _).map _).sum_eq
  have split := nodesOf_add fields
  have split' := nodesOf_add fields'
  omega

mutual

/-- The order of fields does not count. -/
lemma nodes_rearranged : ∀ {data data' : Data σ}, Rearranged data data' → data.nodes = data'.nodes
  | .scalar _, _, h => by
    cases h
    rfl
  | .array items, _, h => by
    cases h with
    | array same => exact nodesIn_rearranged same
  | .table fields, _, h => by
    cases h with
    | table same order =>
      rw [Data.nodes, Data.nodes, nodesOf_rearranged same, nodesOf_perm order]

/-- Rearranged items have as many nodes. -/
lemma nodesIn_rearranged : ∀ {items items' : List (Data σ)}, List.Forall₂ Rearranged items items' →
    nodesIn items = nodesIn items'
  | [], _, .nil => rfl
  | _ :: _, _, .cons first rest => by
    rw [nodesIn, nodesIn, nodes_rearranged first, nodesIn_rearranged rest]

/-- Rearranged fields have as many nodes. -/
lemma nodesOf_rearranged : ∀ {fields fields' : List (String × Data σ)},
    List.Forall₂ RearrangedField fields fields' → nodesOf fields = nodesOf fields'
  | [], _, .nil => rfl
  | (_, _) :: _, _, .cons (.mk first) rest => by
    rw [nodesOf, nodesOf, nodes_rearranged first, nodesOf_rearranged rest]

end

mutual

/-- A readable table is read as a section with its nodes. -/
lemma size_sectionOf (name : String) : ∀ {fields : List (String × Data σ)}, ReadableFields fields →
    (sectionOf r name fields).size = nodesOf fields + 1
  | [], _ => rfl
  | (key, data) :: rest, ⟨first, later⟩ => by
    have after := size_sectionOf name later
    simp only [sectionOf, Shape.size, attributesOf, List.flatMap_cons, List.length_append,
      sectionsOf, Shape.sizes_append, nodesOf] at after ⊢
    by_cases reserved : key = sectionValueKey
    · rw [if_pos reserved, if_pos reserved, if_pos reserved, List.length_nil, Shape.sizes]
      omega
    · have here := size_field key (first.resolve_left reserved).2
      rw [if_neg reserved, if_neg reserved, if_neg reserved]
      omega

/-- A readable field is read as its nodes. -/
lemma size_field (key : String) : ∀ {data : Data σ}, ReadableField data →
    (data.items.flatMap (attributesIn r key)).length + Shape.sizes (sectionsIn r key data) =
      data.nodes
  | .scalar s, _ => rfl
  | .array items, readable => by
    rw [sectionsIn]
    exact size_items key readable
  | .table fields, readable => by
    have inner : (sectionOf r key fields).size = nodesOf fields + 1 := size_sectionOf key readable
    rw [sectionOf] at inner
    simpa [Data.items, attributesIn, sectionsIn, Shape.sizes, Data.nodes] using inner

/-- Readable items are read as their nodes. -/
lemma size_items (key : String) : ∀ {items : List (Data σ)}, ReadableItems items →
    (items.flatMap (attributesIn r key)).length + Shape.sizes (sectionsInAll r key items) =
      nodesIn items
  | [], _ => rfl
  | .scalar s :: items, ⟨_, later⟩ => by
    have after := size_items key later
    simp only [List.flatMap_cons, attributesIn, List.length_append, List.length_singleton,
      sectionsInAll, sectionsIn, List.nil_append, nodesIn, Data.nodes]
    omega
  | .table fields :: items, ⟨first, later⟩ => by
    have after := size_items key later
    have inner : (sectionOf r key fields).size = nodesOf fields + 1 := size_sectionOf key first
    rw [sectionOf] at inner
    simp only [List.flatMap_cons, attributesIn, List.nil_append, sectionsInAll, sectionsIn,
      List.singleton_append, Shape.sizes, nodesIn, Data.nodes]
    omega

end

/-! ## Nodes under the reserved key -/

/-- An entry that is folded is not lost. -/
lemma nodesUnder_addField (fields : List (String × Data σ)) (name : String) (data : Data σ) :
    nodesUnder (addField fields name data) = nodesUnder fields + data.nodes := by
  induction fields with
  | nil => simp [addField, nodesUnder]
  | cons f fields ih =>
    obtain ⟨key, first⟩ := f
    cases same : sameName key name with
    | true =>
      have joined : (Data.array (first.items ++ [data])).nodes = first.nodes + data.nodes := by
        rw [Data.nodes, nodesIn_append, nodesIn_items]
        rfl
      rw [addField_of_same same]
      simp only [nodesUnder, List.map_cons, List.sum_cons, joined]
      omega
    | false =>
      rw [addField_of_not_same same]
      simp only [nodesUnder, List.map_cons, List.sum_cons] at ih ⊢
      omega

/-- Each entry that is added brings its nodes. -/
lemma nodesUnder_addAll (fields entries : List (String × Data σ)) :
    nodesUnder (addAll fields entries) = nodesUnder fields + nodesUnder entries := by
  induction entries generalizing fields with
  | nil => rfl
  | cons e entries ih =>
    rw [addAll, List.foldl_cons, ← addAll, ih, nodesUnder_addField]
    simp only [nodesUnder, List.map_cons, List.sum_cons, Nat.add_assoc]

/-- No entry of a section is lost when its table is written. -/
lemma nodesUnder_sectionFields (t : Subtree) : nodesUnder (sectionFields ofText t) =
    nodesUnder (ownField ofText t.value) + nodesUnder (entriesOf ofText t) := by
  rw [sectionFields_eq, nodesUnder_addAll]

/-- An entry is read as some node. -/
lemma nodes_pos {e : String × Data σ} (enters : Enters e) : 0 < e.2.nodes := by
  obtain ⟨key, data⟩ := e
  cases data with
  | scalar s => exact Nat.one_pos
  | array items =>
    -- An array is not among its own items.
    have smaller := congrArg sizeOf (enters.2 : items = [.array items])
    simp [Data.items] at smaller
    omega
  | table fields => exact Nat.succ_pos _

section

variable {t : Subtree} (named : t.Named)

include named

/-- Under the reserved key, if there is a field in that spelling, stand the value of the section and
all entries of the name. -/
lemma nodesUnder_reserved (there : sectionValueKey ∈ (sectionFields ofText t).map Prod.fst) :
    nodesUnder ((sectionFields ofText t).filter (·.1 = sectionValueKey)) =
      nodesUnder (ownField ofText t.value) +
        nodesUnder ((entriesOf ofText t).filter (isFor sectionValueKey)) := by
  obtain ⟨f, hf, reserved⟩ := List.mem_map.1 there
  have folded : Folded ((sectionFields ofText t).map Prod.fst) := folded_sectionFields named
  have only : (sectionFields ofText t).filter (isFor sectionValueKey) = [f] :=
    folded.filter_eq hf (by rw [isFor, reserved, sameName_refl])
  have held : nodesIn (itemsNamed sectionValueKey (sectionFields ofText t)) = f.2.nodes := by
    rw [itemsNamed, only, List.flatMap_singleton, nodesIn_items]
  have own : nodesIn (itemsNamed sectionValueKey (ownField ofText t.value)) =
      nodesUnder (ownField ofText t.value) := by
    cases t.value with
    | none => rfl
    | some v => simp [itemsNamed, ownField, isFor, nodesUnder, Data.items, nodesIn]
  have enter : ∀ e ∈ entriesOf ofText t, Enters e := entriesOf_enter named
  rw [sectionFields_eq, (itemsNamed_addAll (folded_ownField _) enter).2,
    nodesIn_append, own, nodesIn_eq, List.map_map] at held
  rw [← filter_key, only, List.filter_cons_of_pos (by simp [reserved])]
  exact (Nat.add_zero _).trans held.symm

variable (ofText) in
/-- Under the reserved key stands at least the value of the section, and nothing else only if the
section keeps the key. -/
lemma own_le_reserved : nodesUnder (ownField ofText t.value) ≤
      nodesUnder ((sectionFields ofText t).filter (·.1 = sectionValueKey)) ∧
    (nodesUnder ((sectionFields ofText t).filter (·.1 = sectionValueKey)) =
      nodesUnder (ownField ofText t.value) → KeepsKey t.shape) := by
  have same : t.shape.value = t.value := by
    cases t
    rfl
  have first := find?_sectionFields ofText t sectionValueKey
  by_cases there : sectionValueKey ∈ (sectionFields ofText t).map Prod.fst
  · rw [nodesUnder_reserved named there]
    refine ⟨Nat.le_add_right _ _, fun only => ?_⟩
    have nothing : nodesUnder ((entriesOf ofText t).filter (isFor sectionValueKey)) = 0 := by omega
    have free : ∀ name ∈ entryNames t.shape, sameName name sectionValueKey = false := by
      rw [← names_entriesOf ofText t]
      intro name hn
      obtain ⟨e, he, rfl⟩ := List.mem_map.1 hn
      refine Bool.eq_false_iff.2 fun reserved => ?_
      have some := List.sum_eq_zero_iff.1 nothing e.2.nodes
        (List.mem_map_of_mem (List.mem_filter.2 ⟨he, reserved⟩))
      exact absurd some (nodes_pos (entriesOf_enter named e he)).ne'
    refine ⟨fun _ => free, fun _ found => ?_⟩
    have apart := free _ (List.mem_of_find?_eq_some found)
    rw [sameName_refl] at apart
    cases apart
  · cases own : t.value with
    | some v =>
      rw [own] at first
      exact absurd (List.mem_of_find?_eq_some (first.trans (by simp [ownField]))) there
    | none =>
      refine ⟨Nat.zero_le _, fun _ => ⟨fun valued => absurd (same.trans own) valued, ?_⟩⟩
      intro _ found
      rw [own] at first
      exact there (List.mem_of_find?_eq_some (first.trans found))

end

/-- The nodes of a section's entries are its attributes and the nodes of its child sections. -/
lemma nodesUnder_entriesOf (t : Subtree) : nodesUnder (entriesOf ofText t) =
    t.attributes.length + (t.children.map fun c => nodesOf (sectionFields ofText c) + 1).sum := by
  rw [entriesOf, nodesUnder_append, nodesUnder, nodesUnder, List.map_map, List.map_map]
  simp [Function.comp_def, Data.nodes]

mutual

/-- The table of a section is read as at most the nodes of the section, and as all of them only if
the reserved key stands for values alone. -/
lemma nodesOf_sectionFields : ∀ t : Subtree, t.Named →
    nodesOf (sectionFields ofText t) + 1 ≤ t.shape.size ∧
      (nodesOf (sectionFields ofText t) + 1 = t.shape.size → Unmistakable t.shape)
  | .mk id name value attributes children, named => by
    obtain ⟨own, keeps⟩ := own_le_reserved ofText named
    obtain ⟨below, deeper⟩ := nodesOf_sectionFields_all children fun c hc => named.2.2.of_mem hc
    have read := nodesOf_add (sectionFields ofText (.mk id name value attributes children))
    rw [nodesUnder_sectionFields, nodesUnder_entriesOf] at read
    have size : (Subtree.mk id name value attributes children).shape.size =
        attributes.length + Shape.sizes (Subtree.shapes children) + 1 := by
      rw [Subtree.shape, Shape.size, List.length_map]
    simp only [Subtree.attributes, Subtree.children] at read
    refine ⟨by omega, fun all t ht => ?_⟩
    have here := keeps (by omega)
    have inside := deeper (by omega)
    rw [Subtree.shape, Subtree.shapes_eq_map] at here ht
    rcases List.mem_cons.1 ht with rfl | ht
    · exact here
    · obtain ⟨s, hs, hts⟩ := Shape.mem_sectionsOf.1 ht
      obtain ⟨c, hc, rfl⟩ := List.mem_map.1 hs
      exact inside c hc t hts

/-- Trees are written with at most as many nodes as they have, and with as many only if they are
unmistakable. -/
lemma nodesOf_sectionFields_all : ∀ ts : List Subtree, (∀ t ∈ ts, t.Named) →
    (ts.map fun t => nodesOf (sectionFields ofText t) + 1).sum ≤
        Shape.sizes (Subtree.shapes ts) ∧
      ((ts.map fun t => nodesOf (sectionFields ofText t) + 1).sum =
        Shape.sizes (Subtree.shapes ts) → ∀ t ∈ ts, Unmistakable t.shape)
  | [], _ => ⟨Nat.le_refl _, fun _ => nofun⟩
  | t :: ts, named => by
    obtain ⟨first, all⟩ := nodesOf_sectionFields t (named t List.mem_cons_self)
    obtain ⟨rest, alls⟩ := nodesOf_sectionFields_all ts
      fun u hu => named u (List.mem_cons_of_mem _ hu)
    rw [List.map_cons, List.sum_cons, Subtree.shapes, Shape.sizes]
    refine ⟨by omega, fun equal => List.forall_mem_cons.2 ⟨all (by omega), alls (by omega)⟩⟩

end

/-! ## Documents -/

/-- What an entry of a section is written as can be read in any order of fields. -/
lemma readable_items {items items' : List (Data σ)} (same : List.Forall₂ Rearranged items items')
    (readable : ∀ item ∈ items, ∀ item', Rearranged item item' → ReadableItem item') :
    ∀ item ∈ items', ReadableItem item := by
  induction same with
  | nil => exact nofun
  | cons first rest ih =>
    rw [List.forall_mem_cons] at readable ⊢
    exact ⟨readable.1 _ first, ih readable.2⟩

mutual

/-- The table of a section can be read, with its fields in any order. -/
lemma readable_sectionFields : ∀ (t : Subtree), t.Named → ∀ fields,
    Rearranged (.table (sectionFields ofText t)) (.table fields) → ReadableFields fields
  | .mk id name value attributes children, named, fields, h => by
    have folded := h.keys (folded_sectionFields named)
    refine readableFields_iff.2 fun f hf =>
      .inr ⟨folded.good f.1 (List.mem_map_of_mem hf), ?_⟩
    have items := h.itemsNamed (folded_sectionFields named) f.1
    rw [itemsNamed_sectionFields named, itemsNamed, itemsNamed,
      folded.filter_eq hf (sameName_refl f.1), List.flatMap_singleton] at items
    refine readable_items items fun item hi item' rearranged => ?_
    have scalars : ∀ s : σ, item = .scalar s → ReadableItem item' := by
      rintro s rfl
      cases rearranged
      exact trivial
    rcases List.mem_append.1 hi with hi | hi
    · cases value with
      | none => cases hi
      | some v =>
        have entry : item = .scalar (ofText (some v)) := by
          simp only [ownField, Subtree.value, List.filter_cons, List.filter_nil] at hi
          split at hi
          · simpa [Data.items] using hi
          · cases hi
        exact scalars _ entry
    · rcases List.mem_append.1 hi with hi | hi
      · obtain ⟨a, -, rfl⟩ := List.mem_map.1 hi
        exact scalars _ rfl
      · obtain ⟨c, hc, rfl⟩ := List.mem_map.1 hi
        have hc := (List.mem_filter.1 hc).1
        obtain ⟨fields, rfl⟩ := rearranged.exists_fields
        exact readable_sectionFields_all children c hc (named.2.2.of_mem hc) fields rearranged

/-- What is written for each of the trees is readable in any order. -/
lemma readable_sectionFields_all : ∀ (ts : List Subtree), ∀ t ∈ ts, t.Named → ∀ fields,
    Rearranged (.table (sectionFields ofText t)) (.table fields) → ReadableFields fields
  | [], _, ht => by cases ht
  | s :: ts, t, ht => by
    rcases List.mem_cons.1 ht with h | h
    · rw [h]
      exact readable_sectionFields s
    · exact readable_sectionFields_all ts t h

end

variable {conf conf' : Configuration} {id : NodeId} {d d' : NodeData}

/-- The table of a section is read back whatever its entries are named, as a root of any name. The
root is structurally equal to the section of that name only if the reserved key stands for values
alone, and then it restores the section. -/
lemma readFields_written (faithful : Faithful r ofText becomes) (wf : conf.WellFormed)
    (live : conf.live? id = some d)
    (h : Rearranged (.table (sectionFields ofText (conf.subtree id))) (.table fields))
    {name : String} (good : GoodName name) (live' : conf'.live? id = some d')
    (sec : d'.kind = .sectionKind) (named : conf'.shape id = (conf.shape id).rename name) :
    ∃ back, (readFields r root fields).apply (.withRoot name) = (.ok (), back) ∧
      (structurallyEqual conf' (some id) back.resetModified (some root) = true →
        Unmistakable (conf.shape id)) ∧
      (Unmistakable (conf.shape id) → (conf.shape id).OneForms →
        Restored becomes conf' id back.resetModified) := by
  have goodNames := named_subtree wf live
  have readable := readable_sectionFields _ goodNames fields h
  obtain ⟨back, run, wf', shape⟩ := readFields_root (r := r) good readable
  obtain ⟨e, he, esec, -⟩ := wf'.resetModified.root
  obtain ⟨e', he', -⟩ := wf'.root
  refine ⟨back, run, fun equal => ?_, fun unmistakable forms => ?_⟩
  · have size := size_of_structurallyEqual (isSection_iff.2 ⟨d', live', sec⟩)
      (isSection_iff.2 ⟨e, he, esec⟩) equal
    rw [shape_resetModified wf' he', shape, size_sectionOf _ readable, named, Shape.size_rename,
      ← Nat.succ.inj (nodes_rearranged h)] at size
    exact (nodesOf_sectionFields _ goodNames).2 size.symm
  · obtain ⟨back', run', -, regrouped⟩ :=
      readFields_sectionFields faithful wf live unmistakable h good
    obtain rfl : back = back' := (Prod.mk.inj (run.symm.trans run')).2
    rw [← named] at regrouped
    have forms' : (conf'.shape id).OneForms := named ▸ forms.rename name
    exact (restored_of_regrouped faithful.blank live' sec forms' wf' regrouped).2

/-- A section can be written in both formats that write tables, whatever its entries are named, and
what was written is read back. The root is structurally equal to the section, but for the name of
the root of a table document, only if the reserved key stands for values alone in the section and
all below it. If it does, and the names of siblings differ in the case of ASCII letters only, the
root restores the section. -/
theorem read_write_unmistakable (h : Reachable conf) (sec : conf.isSection id = true) :
    ((∃ text, Format.json.write conf (some id) = .ok text) ∧
      ∀ value, Rearranged (Json.sectionValue (conf.subtree id)) value →
      ∀ text, Json.Value.read text.toList = some (.table [(conf.nameOf id, value)]) →
        ∃ back, Format.json.read text = .ok back ∧
          (structurallyEqual conf (some id) back (some root) = true →
            Unmistakable (conf.shape id)) ∧
          (Unmistakable (conf.shape id) → (conf.shape id).OneForms →
            Restored (fun v => v) conf id back)) ∧
    (∃ text, Format.toml.write conf (some id) = .ok text) ∧
      ∀ fields, Rearranged (.table (sectionFields Toml.scalarOf (conf.subtree id)))
        (.table fields) →
      ∀ text, Toml.readTable text.toList = some fields →
        ∃ back, Format.toml.read text = .ok back ∧
          (structurallyEqual (conf.replaceName id defaultRootName) (some id) back (some root) =
            true → Unmistakable (conf.shape id)) ∧
          (Unmistakable (conf.shape id) → (conf.shape id).OneForms →
            Restored (fun v => some (v.getD "")) (conf.replaceName id defaultRootName) id
              back) := by
  have wf := h.wellFormed
  obtain ⟨d, live, kind⟩ := isSection_iff.1 sec
  refine ⟨⟨⟨_, write_section .json live kind⟩, fun value rearranged text parsed => ?_⟩,
    ⟨_, write_section .toml live kind⟩, fun fields rearranged text parsed => ?_⟩
  · obtain ⟨fields, rfl⟩ := rearranged.exists_fields
    have self : conf.shape id = (conf.shape id).rename d.name := by
      rw [← name_shape wf live, Shape.rename_self]
    obtain ⟨back, run, lost, restored⟩ := readFields_written faithful_json wf live rearranged
      (wf.named id d live) live kind self
    refine ⟨back.resetModified, ?_, lost, restored⟩
    rw [nameOf, live] at parsed
    simp only [Format.read, Format.readModified, Json.read, parsed, Option.map_some,
      Option.getD_some, Json.configurationOf, Json.readRoot, run]
    rfl
  · have good : GoodName defaultRootName := ⟨by decide, by decide +kernel⟩
    have renamed : (conf.replaceName id defaultRootName).shape id =
        (conf.shape id).rename defaultRootName := by
      rw [shape_replaceName wf live good, Shape.rename, shape_eq wf live]
      rfl
    obtain ⟨back, run, lost, restored⟩ := readFields_written faithful_toml wf live rearranged good
      (live?_replaceName_self live) kind renamed
    refine ⟨back.resetModified, ?_, lost, restored⟩
    rw [Format.read, Format.readModified, Toml.read, parsed]
    simp only [Configuration.empty, run]
    rfl

/-- Entries in two spellings of the reserved name, of which the first is not that of the key, come
back below a section without a value. -/
theorem read_write_unmistakable_spelling :
    let conf := (withRoot "base").operateAll
      [(.bare, .addAttribute 0 "-Section-Value" (some "x")),
       (.bare, .addSection 0 "-section-value" none),
        (.bare, .addAttribute 2 "port" (some "1"))]
    let object := "\x7b\"base\":\x7b\"-Section-Value\":[\"x\",\x7b\"port\":\"1\"\x7d]\x7d\x7d"
    let table := "-Section-Value = [\"x\", \x7b port = \"1\" \x7d]\n"
    Reachable conf ∧ conf.isSection root = true ∧
      (∃ back, Format.json.read object = .ok back ∧ Restored (fun v => v) conf root back) ∧
      ∃ back, Format.toml.read table = .ok back ∧
        Restored (fun v => some (v.getD "")) (conf.replaceName root defaultRootName) root back := by
  intro conf object table
  have reach : Reachable conf :=
    (Reachable.withRoot "base").operateAll _ (by simp [Operation.others])
  have sec : conf.isSection root = true := by decide +kernel
  obtain ⟨⟨-, json⟩, -, toml⟩ := read_write_unmistakable reach sec
  have written : Json.sectionValue (conf.subtree root) = .table
      [("-Section-Value", .array [.scalar (.text "x"),
        .table [("port", .scalar (.text "1"))]])] := by
    unfold conf
    rfl
  have written' : sectionFields Toml.scalarOf (conf.subtree root) =
      [("-Section-Value", .array [.scalar (.text "x"),
        .table [("port", .scalar (.text "1"))]])] := by
    unfold conf
    rfl
  have name : conf.nameOf root = "base" := by decide +kernel
  rw [written, name] at json
  rw [written'] at toml
  have unmistakable : Unmistakable (conf.shape root) := by decide +kernel
  have forms : (conf.shape root).OneForms := by decide +kernel
  obtain ⟨back, read, -, restored⟩ := json _ (.refl _) object (by unfold object; cbv)
  obtain ⟨back', read', -, restored'⟩ := toml _ (.refl _) table (by unfold table; cbv)
  exact ⟨reach, sec, ⟨back, read, restored unmistakable forms⟩,
    ⟨back', read', restored' unmistakable forms⟩⟩

/-- An attribute that has the reserved name is taken for the value of its section, and one that
spells the name in another way joins the value in an array. Both formats write such sections and
read something else back. -/
theorem not_read_write_reserved :
    let unvalued := (withRoot "root").operateAll
      [(.bare, .addAttribute 0 "-section-value" (some "x"))]
    let valued := (withRoot "root").operateAll
      [(.bare, .setValue 0 (some "v")), (.bare, .addAttribute 0 "-Section-Value" (some "x"))]
    let changed (format : Format) (conf : Configuration) : Prop := ∃ text back,
      format.write conf (some root) = .ok text ∧ format.read text = .ok back ∧
        structurallyEqual conf (some root) back (some root) = false
    (Reachable unvalued ∧ changed .json unvalued ∧ changed .toml unvalued) ∧
      Reachable valued ∧ changed .json valued ∧ changed .toml valued := by
  intro unvalued valued changed
  have change {format : Format} {conf : Configuration}
      (round : (do
        let back ← format.read (← format.write conf (some root))
        return structurallyEqual conf (some root) back (some root)) = Except.ok false) :
      changed format conf := by
    cases written : format.write conf (some root) with
    | error e => rw [written] at round; cases round
    | ok text =>
      rw [written, ok_bind] at round
      cases read : format.read text with
      | error e => rw [read] at round; cases round
      | ok back =>
        rw [read, ok_bind] at round
        exact ⟨text, back, written, read, Except.ok.inj round⟩
  refine ⟨⟨(Reachable.withRoot "root").operateAll _ (by simp [Operation.others]), change ?_,
    change ?_⟩, (Reachable.withRoot "root").operateAll _ (by simp [Operation.others]), change ?_,
    change ?_⟩
  all_goals decide +kernel

end Document

end ConfTree
