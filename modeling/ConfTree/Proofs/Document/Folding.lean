import ConfTree.Document.Data
import ConfTree.Proofs.Tree.Copy
import Mathlib.Data.List.Forall2

/-!
# Entries folded into tables

The writer folds the entries of a section that have one name, in any ASCII case, into one field. A
field holds its entries in the order in which they came (`itemsNamed_sectionFields`): the attributes
of the name, then its child sections. The keys of a table are told apart (`Folded`), so the order of
its fields says nothing, and a table with its fields in another order holds the same entries of each
name (`Rearranged.itemsNamed`). The value of a section stands among its entries, under a key that
can be the name of an entry too. It is there alone in that spelling if the section `KeepsKey`
(`own_sectionFields`).
-/

namespace ConfTree.Document

open ConfTree.Text

variable {σ : Type} {k name : String} {data : Data σ} {fields fields' : List (String × Data σ)}

/-! ## Fields and their entries -/

/-- The entries that a field holds. -/
def Data.items : Data σ → List (Data σ)
  | .array items => items
  | .scalar s => [.scalar s]
  | .table fields => [.table fields]

/-- The field has the given name, in any ASCII case. -/
def isFor (k : String) (field : String × Data σ) : Bool := sameName field.1 k

/-- The entries of a name, in any ASCII case. -/
def itemsNamed (k : String) (fields : List (String × Data σ)) : List (Data σ) :=
  (fields.filter (isFor k)).flatMap (·.2.items)

/-- Keys that are told apart and can name nodes. -/
structure Folded (keys : List String) : Prop where
  distinct : keys.Pairwise fun a b => sameName a b = false
  good : ∀ key ∈ keys, GoodName key

namespace Folded

/-- Keys in another order are told apart all the same. -/
lemma perm {keys keys' : List String} (h : Folded keys) (p : keys.Perm keys') : Folded keys' := by
  have symm : ∀ {a b : String}, sameName a b = false → sameName b a = false := fun apart =>
    (sameName_comm _ _).trans apart
  exact ⟨(p.pairwise_iff symm).1 h.distinct, fun key hk => h.good key (p.mem_iff.2 hk)⟩

/-- The fields behind a field are for other names. -/
lemma filter_rest {f : String × Data σ} (h : Folded ((f :: fields).map Prod.fst))
    (hf : isFor k f = true) : fields.filter (isFor k) = [] := by
  refine List.filter_eq_nil_iff.2 fun g hg same => ?_
  have apart := List.rel_of_pairwise_cons h.distinct (List.mem_map_of_mem hg)
  rw [sameName_trans hf (sameName_symm same)] at apart
  cases apart

/-- The keys behind the first one are folded, too. -/
lemma tail {key : String} {keys : List String} (h : Folded (key :: keys)) : Folded keys :=
  ⟨h.distinct.tail, fun k hk => h.good k (List.mem_cons_of_mem _ hk)⟩

/-- A name has one field or none. -/
lemma field (h : Folded (fields.map Prod.fst)) (k : String) :
    fields.filter (isFor k) = [] ∨
      ∃ f ∈ fields, isFor k f = true ∧ fields.filter (isFor k) = [f] := by
  induction fields with
  | nil => exact .inl rfl
  | cons f fields ih =>
    cases hf : isFor k f with
    | true => exact .inr ⟨f, List.mem_cons_self, hf, by simp [hf, h.filter_rest hf]⟩
    | false =>
      rw [List.filter_cons_of_neg (by simp [hf])]
      obtain none | ⟨g, hg, same, one⟩ := ih h.tail
      · exact .inl none
      · exact .inr ⟨g, List.mem_cons_of_mem _ hg, same, one⟩

/-- A field is the only one of its names. -/
lemma filter_eq (h : Folded (fields.map Prod.fst)) {f : String × Data σ} (hf : f ∈ fields)
    (same : isFor k f = true) : fields.filter (isFor k) = [f] := by
  have found := List.mem_filter.2 ⟨hf, same⟩
  obtain none | ⟨g, -, -, one⟩ := h.field k
  · rw [none] at found
    cases found
  · rw [one] at found ⊢
    rw [List.mem_singleton.1 found]

/-- A table in another order has the same field for a name. -/
lemma filter_perm (h : Folded (fields.map Prod.fst)) (p : fields.Perm fields') (k : String) :
    fields'.filter (isFor k) = fields.filter (isFor k) := by
  have same := p.filter (isFor k)
  obtain none | ⟨f, -, -, one⟩ := h.field k
  · rw [none] at same ⊢
    exact List.nil_perm.1 same
  · rw [one] at same ⊢
    exact (List.singleton_perm.1 same).symm

/-- A key is found by every spelling of it. -/
lemma find?_eq {keys : List String} (h : Folded keys) (hk : k ∈ keys)
    (same : sameName k name = true) : keys.find? (sameName · name) = some k := by
  induction keys with
  | nil => cases hk
  | cons key keys ih =>
    rcases List.mem_cons.1 hk with rfl | later
    · exact List.find?_cons_of_pos same
    · have apart : sameName key name = false := by
        rw [← sameName_congr_right same]
        exact List.rel_of_pairwise_cons h.distinct later
      rw [List.find?_cons_of_neg (by simp [apart])]
      exact ih h.tail later

end Folded

/-! ## Folding one entry -/

/-- An entry joins the field of its name. -/
lemma addField_of_same {key : String} {first : Data σ} (h : sameName key name = true) :
    addField ((key, first) :: fields) name data =
      (key, .array (first.items ++ [data])) :: fields := by
  cases first <;> simp [addField, h, Data.items]

/-- An entry passes a field with another name. -/
lemma addField_of_not_same {key : String} {first : Data σ} (h : sameName key name = false) :
    addField ((key, first) :: fields) name data = (key, first) :: addField fields name data := by
  simp [addField, h]

/-- A new entry has a key of its own if no field is for its name. -/
lemma keys_addField (fields : List (String × Data σ)) (name : String) (data : Data σ) :
    (addField fields name data).map Prod.fst = fields.map Prod.fst ∨
    (addField fields name data).map Prod.fst = fields.map Prod.fst ++ [name] ∧
      ∀ key ∈ fields.map Prod.fst, sameName key name = false := by
  induction fields with
  | nil => exact .inr ⟨rfl, nofun⟩
  | cons f fields ih =>
    obtain ⟨key, first⟩ := f
    cases h : sameName key name with
    | true =>
      rw [addField_of_same h]
      exact .inl rfl
    | false =>
      rw [addField_of_not_same h, List.map_cons, List.map_cons]
      obtain same | ⟨new, apart⟩ := ih
      · exact .inl (by rw [same])
      · refine .inr ⟨by rw [new, List.cons_append], fun x hx => ?_⟩
        rcases List.mem_cons.1 hx with rfl | hx
        · exact h
        · exact apart x hx

/-- Keys stay folded when an entry is added. -/
lemma Folded.addField (h : Folded (fields.map Prod.fst)) (good : GoodName name) (data : Data σ) :
    Folded ((Document.addField fields name data).map Prod.fst) := by
  obtain same | ⟨new, apart⟩ := keys_addField fields name data
  · rwa [same]
  · rw [new]
    refine ⟨List.pairwise_append.2 ⟨h.distinct, List.pairwise_singleton _ _, fun a ha b hb => ?_⟩,
      fun key hk => ?_⟩
    · rw [List.mem_singleton.1 hb]
      exact apart a ha
    · rcases List.mem_append.1 hk with hk | hk
      · exact h.good key hk
      · rw [List.mem_singleton.1 hk]
        exact good

/-- A name has the key in which it is spelled first. -/
lemma find?_addField (fields : List (String × Data σ)) (name : String) (data : Data σ)
    (k : String) : ((addField fields name data).map Prod.fst).find? (sameName · k) =
      (fields.map Prod.fst ++ [name]).find? (sameName · k) := by
  induction fields with
  | nil => rfl
  | cons f fields ih =>
    obtain ⟨key, first⟩ := f
    cases h : sameName key name with
    | true =>
      rw [addField_of_same h]
      cases hk : sameName key k with
      | true => simp [hk]
      | false => simp [hk, (sameName_congr h k).symm.trans hk]
    | false =>
      rw [addField_of_not_same h, List.map_cons, List.map_cons, List.cons_append, List.find?_cons,
        List.find?_cons, ih]

/-- An entry leaves the fields that are for other names. -/
lemma filter_addField (other : sameName name k = false) :
    (addField fields name data).filter (isFor k) = fields.filter (isFor k) := by
  induction fields with
  | nil => simp [addField, isFor, other]
  | cons f fields ih =>
    obtain ⟨key, first⟩ := f
    cases h : sameName key name with
    | true =>
      have apart : sameName key k = false := (sameName_congr h k).trans other
      rw [addField_of_same h]
      simp [isFor, apart]
    | false => rw [addField_of_not_same h, List.filter_cons, List.filter_cons, ih]

/-- An entry comes last among those of its name. -/
lemma itemsNamed_addField (h : Folded (fields.map Prod.fst)) (same : sameName name k = true)
    (one : data.items = [data]) :
    itemsNamed k (addField fields name data) = itemsNamed k fields ++ [data] := by
  induction fields with
  | nil => simp [addField, itemsNamed, isFor, same, one]
  | cons f fields ih =>
    obtain ⟨key, first⟩ := f
    cases hk : sameName key name with
    | true =>
      have joined : isFor k (key, first) = true := sameName_trans hk same
      have rest := h.filter_rest joined
      rw [addField_of_same hk, itemsNamed, itemsNamed, List.filter_cons_of_pos joined, rest,
        List.filter_cons_of_pos (by exact joined), rest]
      simp [Data.items]
    | false =>
      have apart : isFor k (key, first) = false := (sameName_congr_right same key).symm.trans hk
      rw [addField_of_not_same hk, itemsNamed, itemsNamed,
        List.filter_cons_of_neg (by simp [apart]), List.filter_cons_of_neg (by simp [apart])]
      exact ih h.tail

/-! ## Folding all entries of a section -/

/-- Adds entries one after the other. -/
def addAll (fields entries : List (String × Data σ)) : List (String × Data σ) :=
  entries.foldl (fun fields e => addField fields e.1 e.2) fields

/-- The field of a section's own value. -/
def ownField (ofText : Option String → σ) (value : Option String) : List (String × Data σ) :=
  match value with
  | some v => [(sectionValueKey, .scalar (ofText (some v)))]
  | none => []

variable {ofText : Option String → σ} {t : Subtree}

/-- The entries of a section: its attributes, then its child sections. -/
def entriesOf (ofText : Option String → σ) (t : Subtree) : List (String × Data σ) :=
  t.attributes.map (fun a => (a.name, .scalar (ofText a.value))) ++
    t.children.map fun c => (c.name, .table (sectionFields ofText c))

/-- Attributes are added as fields with scalars. -/
lemma addAttributes_eq (attributes : List Attribute) :
    addAttributes ofText fields attributes =
      addAll fields (attributes.map fun a => (a.name, .scalar (ofText a.value))) := by
  induction attributes generalizing fields with
  | nil => rfl
  | cons a attributes ih =>
    rw [addAttributes, ih]
    rfl

/-- Child sections are added as fields with tables. -/
lemma addSections_eq (ts : List Subtree) :
    addSections ofText fields ts =
      addAll fields (ts.map fun c => (c.name, .table (sectionFields ofText c))) := by
  induction ts generalizing fields with
  | nil => rfl
  | cons t ts ih =>
    rw [addSections, ih]
    rfl

/-- The table of a section holds its own value, and its entries folded. -/
lemma sectionFields_eq (t : Subtree) :
    sectionFields ofText t = addAll (ownField ofText t.value) (entriesOf ofText t) := by
  obtain ⟨id, name, value, attributes, children⟩ := t
  have unfolded : sectionFields ofText (.mk id name value attributes children) =
      addSections ofText (addAttributes ofText (ownField ofText value) attributes) children := by
    cases value <;> rw [sectionFields] <;> rfl
  rw [unfolded, addSections_eq, addAttributes_eq, entriesOf, addAll, addAll, addAll,
    List.foldl_append]
  rfl

/-- The reserved key can be the name of a node. -/
lemma goodName_sectionValueKey : GoodName sectionValueKey := ⟨by decide, by decide +kernel⟩

/-- The key of a section's own value stands alone. -/
lemma folded_ownField (value : Option String) :
    Folded ((ownField ofText value).map Prod.fst) := by
  cases value with
  | none => exact ⟨List.Pairwise.nil, nofun⟩
  | some v => exact ⟨List.pairwise_singleton _ _, List.forall_mem_singleton.2
      goodName_sectionValueKey⟩

/-- The entry has a name of a node, and is no array. -/
def Enters (e : String × Data σ) : Prop := GoodName e.1 ∧ e.2.items = [e.2]

/-- Entries leave the fields that are for other names. -/
lemma filter_addAll {entries : List (String × Data σ)} (others : ∀ e ∈ entries, isFor k e = false) :
    (addAll fields entries).filter (isFor k) = fields.filter (isFor k) := by
  induction entries generalizing fields with
  | nil => rfl
  | cons e entries ih =>
    rw [addAll, List.foldl_cons, ← addAll, ih fun x hx => others x (List.mem_cons_of_mem _ hx)]
    exact filter_addField (others e List.mem_cons_self)

/-- Entries come last, in their order, among those of their names. -/
lemma itemsNamed_addAll {entries : List (String × Data σ)} (h : Folded (fields.map Prod.fst))
    (enter : ∀ e ∈ entries, Enters e) :
    Folded ((addAll fields entries).map Prod.fst) ∧ ∀ k, itemsNamed k (addAll fields entries) =
      itemsNamed k fields ++ (entries.filter (isFor k)).map Prod.snd := by
  induction entries generalizing fields with
  | nil => exact ⟨h, fun k => by simp [addAll]⟩
  | cons e entries ih =>
    obtain ⟨good, one⟩ := enter e List.mem_cons_self
    obtain ⟨folded, items⟩ := ih (h.addField good e.2)
      fun x hx => enter x (List.mem_cons_of_mem _ hx)
    refine ⟨folded, fun k => ?_⟩
    rw [addAll, List.foldl_cons, ← addAll, items]
    cases same : isFor k e with
    | true => simp [itemsNamed_addField h same one, same]
    | false =>
      rw [itemsNamed, filter_addField same, ← itemsNamed, List.filter_cons_of_neg (by simp [same])]

/-- A name has the key in which it is spelled first, among fields and entries. -/
lemma find?_addAll (fields entries : List (String × Data σ)) (k : String) :
    ((addAll fields entries).map Prod.fst).find? (sameName · k) =
      (fields.map Prod.fst ++ entries.map Prod.fst).find? (sameName · k) := by
  induction entries generalizing fields with
  | nil => rw [addAll, List.foldl_nil, List.map_nil, List.append_nil]
  | cons e entries ih =>
    rw [addAll, List.foldl_cons, ← addAll, ih, List.find?_append, find?_addField,
      ← List.find?_append, List.map_cons, List.append_assoc, List.singleton_append]

section

variable (named : t.Named)

include named

/-- The entries of a section can be folded. -/
lemma entriesOf_enter : ∀ e ∈ entriesOf ofText t, Enters e := by
  obtain ⟨_, name, value, attributes, children⟩ := t
  obtain ⟨-, goodAttributes, goodChildren⟩ := named
  intro e he
  rcases List.mem_append.1 he with he | he
  · obtain ⟨a, ha, rfl⟩ := List.mem_map.1 he
    exact ⟨goodAttributes a ha, rfl⟩
  · obtain ⟨c, hc, rfl⟩ := List.mem_map.1 he
    exact ⟨(goodChildren.of_mem hc).name, rfl⟩

/-- The table of a section has one key for the entries of a name. -/
lemma folded_sectionFields : Folded ((sectionFields ofText t).map Prod.fst) := by
  rw [sectionFields_eq]
  exact (itemsNamed_addAll (folded_ownField _) (entriesOf_enter named)).1

/-- The entries of a name in the table of a section are its value if that has the name, the
attributes of the name, then the child sections of it. -/
lemma itemsNamed_sectionFields (k : String) :
    itemsNamed k (sectionFields ofText t) = itemsNamed k (ownField ofText t.value) ++
      ((t.attributes.filter fun a => sameName a.name k).map (fun a => .scalar (ofText a.value)) ++
        (t.children.filter fun c => sameName c.name k).map
          fun c => .table (sectionFields ofText c)) := by
  have enter : ∀ e ∈ entriesOf ofText t, Enters e := entriesOf_enter named
  rw [sectionFields_eq, (itemsNamed_addAll (folded_ownField _) enter).2, entriesOf,
    List.filter_append, List.map_append, List.filter_map, List.filter_map, List.map_map,
    List.map_map]
  rfl

end

/-! ## The key of the value -/

/-- The names of the attributes and the child sections of a section. -/
def entryNames (s : Shape) : List String := s.attributes.map Prod.fst ++ s.children.map Shape.name

/-- The reserved key stands for the value of the section and for nothing else. No entry of a section
with a value has that name, and in one without a value the first entry of that name, if any, spells
it in another way. -/
@[mk_iff]
structure KeepsKey (s : Shape) : Prop where
  valued : s.value ≠ none → ∀ name ∈ entryNames s, sameName name sectionValueKey = false
  unvalued : s.value = none →
    (entryNames s).find? (sameName · sectionValueKey) ≠ some sectionValueKey

instance (s : Shape) : Decidable (KeepsKey s) := decidable_of_iff _ (keepsKey_iff s).symm

/-- The reserved key stands for values alone in all sections of the shape. -/
def Unmistakable (s : Shape) : Prop := ∀ t ∈ s.sections, KeepsKey t

instance (s : Shape) : Decidable (Unmistakable s) :=
  inferInstanceAs (Decidable (∀ t ∈ s.sections, KeepsKey t))

/-- No attribute and no section below the root of the shape has the reserved name. -/
def Unreserved (s : Shape) : Prop :=
  ∀ t ∈ s.sections, (∀ a ∈ t.attributes, sameName a.1 sectionValueKey = false) ∧
    ∀ c ∈ t.children, sameName c.name sectionValueKey = false

instance (s : Shape) : Decidable (Unreserved s) :=
  inferInstanceAs (Decidable (∀ t ∈ s.sections,
    (∀ a ∈ t.attributes, sameName a.1 sectionValueKey = false) ∧
      ∀ c ∈ t.children, sameName c.name sectionValueKey = false))

/-- Where nothing has the reserved name, its key is that of values. -/
lemma Unreserved.unmistakable {s : Shape} (unreserved : Unreserved s) : Unmistakable s := by
  intro t ht
  obtain ⟨attributes, children⟩ := unreserved t ht
  have free : ∀ name ∈ entryNames t, sameName name sectionValueKey = false := by
    intro name hn
    rcases List.mem_append.1 hn with hn | hn
    · obtain ⟨a, ha, rfl⟩ := List.mem_map.1 hn
      exact attributes a ha
    · obtain ⟨c, hc, rfl⟩ := List.mem_map.1 hn
      exact children c hc
  refine ⟨fun _ => free, fun _ found => ?_⟩
  have same := free _ (List.mem_of_find?_eq_some found)
  rw [sameName_refl] at same
  cases same

/-- The entries of a section have the names of its shape. -/
lemma names_entriesOf (ofText : Option String → σ) (t : Subtree) :
    (entriesOf ofText t).map Prod.fst = entryNames t.shape := by
  rw [entriesOf, entryNames, t.attributes_shape, t.children_shape, List.map_append, List.map_map,
    List.map_map, List.map_map, List.map_map]
  simp only [Function.comp_def, Subtree.name_shape]
  rfl

/-- A name has the key in which it is spelled first in a section. -/
lemma find?_sectionFields (ofText : Option String → σ) (t : Subtree) (k : String) :
    ((sectionFields ofText t).map Prod.fst).find? (sameName · k) =
      ((ownField ofText t.value).map Prod.fst ++ entryNames t.shape).find? (sameName · k) := by
  rw [sectionFields_eq, find?_addAll, names_entriesOf]

/-- The field under a key, in the spelling of the key. -/
lemma filter_key (fields : List (String × Data σ)) (key : String) :
    (fields.filter (isFor key)).filter (·.1 = key) = fields.filter (·.1 = key) := by
  rw [List.filter_filter]
  refine List.filter_congr fun f _ => ?_
  by_cases h : f.1 = key
  · simp [h, isFor]
  · simp [h]

/-- What stands under the reserved key in the table of a section is its value, if the section keeps
the key. -/
lemma own_sectionFields (named : t.Named) (keeps : KeepsKey t.shape) :
    (sectionFields ofText t).filter (·.1 = sectionValueKey) = ownField ofText t.value := by
  have same : t.shape.value = t.value := by
    cases t
    rfl
  cases own : t.value with
  | some v =>
    have valued : t.shape.value ≠ none := by simp [same, own]
    have others : ∀ e ∈ entriesOf ofText t, isFor sectionValueKey e = false := fun e he =>
      keeps.valued valued e.1 (names_entriesOf ofText t ▸ List.mem_map_of_mem he)
    rw [← filter_key, sectionFields_eq, filter_addAll others, filter_key, own]
    simp [ownField]
  | none =>
    refine List.filter_eq_nil_iff.2 fun f hf reserved => keeps.unvalued (same.trans own) ?_
    have reserved : f.1 = sectionValueKey := of_decide_eq_true reserved
    have found := (folded_sectionFields named).find?_eq (List.mem_map_of_mem hf)
      (reserved ▸ sameName_refl sectionValueKey)
    rw [find?_sectionFields, own, reserved] at found
    exact found

/-! ## Fields in another order -/

mutual

/-- The data are the same but for the order of the fields of tables. -/
inductive Rearranged : Data σ → Data σ → Prop where
  | scalar (s : σ) : Rearranged (.scalar s) (.scalar s)
  | array {items items' : List (Data σ)} :
    List.Forall₂ Rearranged items items' →
    Rearranged (.array items) (.array items')
  | table {fields fields' fields'' : List (String × Data σ)} :
    List.Forall₂ RearrangedField fields fields' →
    fields'.Perm fields'' →
    Rearranged (.table fields) (.table fields'')

/-- The fields have one key, and their data are the same but for the order of fields. -/
inductive RearrangedField : String × Data σ → String × Data σ → Prop where
  | mk {key : String} {data data' : Data σ} :
    Rearranged data data' →
    RearrangedField (key, data) (key, data')

end

/-- Rearranging keeps the keys. -/
lemma RearrangedField.key {f f' : String × Data σ} (h : RearrangedField f f') : f.1 = f'.1 := by
  cases h
  rfl

/-- Rearranging a field rearranges its value. -/
lemma RearrangedField.rearranged {f f' : String × Data σ} (h : RearrangedField f f') :
    Rearranged f.2 f'.2 := by
  cases h with
  | mk h => exact h

namespace Rearranged

mutual

/-- The data as they are. -/
lemma refl : ∀ data : Data σ, Rearranged data data
  | .scalar s => .scalar s
  | .array items => .array (refl_items items)
  | .table fields => .table (refl_fields fields) (.refl fields)

/-- Items are rearrangements of themselves. -/
lemma refl_items : ∀ items : List (Data σ), List.Forall₂ Rearranged items items
  | [] => .nil
  | item :: items => .cons (refl item) (refl_items items)

/-- Fields are rearrangements of themselves. -/
lemma refl_fields : ∀ fields : List (String × Data σ), List.Forall₂ RearrangedField fields fields
  | [] => .nil
  | (_, data) :: fields => .cons (.mk (refl data)) (refl_fields fields)

end

/-- A table with its fields in another order. -/
lemma of_perm (order : fields.Perm fields') : Rearranged (.table fields) (.table fields') :=
  .table (refl_fields fields) order

/-- Entries keep their order. -/
lemma items {data data' : Data σ} (h : Rearranged data data') :
    List.Forall₂ Rearranged data.items data'.items := by
  cases h with
  | scalar s => exact .cons (.scalar s) .nil
  | array items => exact items
  | table fields order => exact .cons (.table fields order) .nil

/-- A table has one table for each order of its fields. -/
lemma exists_order (h : Rearranged (.table fields) (.table fields')) :
    ∃ mid, List.Forall₂ RearrangedField fields mid ∧ mid.Perm fields' := by
  cases h with
  | table same order => exact ⟨_, same, order⟩

/-- A table stays a table. -/
lemma exists_fields {data : Data σ} (h : Rearranged (.table fields) data) :
    ∃ fields', data = .table fields' := by
  cases h with
  | table => exact ⟨_, rfl⟩

/-- The keys of a table are told apart in any order. -/
lemma keys (h : Rearranged (.table fields) (.table fields'))
    (folded : Folded (fields.map Prod.fst)) : Folded (fields'.map Prod.fst) := by
  obtain ⟨mid, same, order⟩ := h.exists_order
  have keys : List.Forall₂ (· = ·) (fields.map Prod.fst) (mid.map Prod.fst) := by
    rw [List.forall₂_map_left_iff, List.forall₂_map_right_iff]
    exact same.imp fun _ _ => RearrangedField.key
  rw [List.forall₂_eq_eq_eq] at keys
  exact (keys ▸ folded).perm (order.map Prod.fst)

/-- The field of a name is the same but for the order of fields inside. -/
lemma filter (h : Rearranged (.table fields) (.table fields'))
    (folded : Folded (fields.map Prod.fst)) (k : String) :
    List.Forall₂ RearrangedField (fields.filter (isFor k)) (fields'.filter (isFor k)) := by
  obtain ⟨mid, same, order⟩ := h.exists_order
  rw [← (h.keys folded).filter_perm order.symm k]
  refine List.rel_filter (fun f f' hf => ?_) same
  show sameName f.1 k = true ↔ sameName f'.1 k = true
  rw [hf.key]

/-- The field under a key is the same but for the order of fields inside. -/
lemma filter_key (h : Rearranged (.table fields) (.table fields'))
    (folded : Folded (fields.map Prod.fst)) (key : String) :
    List.Forall₂ RearrangedField (fields.filter (·.1 = key)) (fields'.filter (·.1 = key)) := by
  rw [← Document.filter_key, ← Document.filter_key fields']
  refine List.rel_filter (fun f f' hf => ?_) (h.filter folded key)
  show decide (f.1 = key) = true ↔ decide (f'.1 = key) = true
  rw [hf.key]

/-- The entries of a name are the same but for the order of fields inside. -/
lemma itemsNamed (h : Rearranged (.table fields) (.table fields'))
    (folded : Folded (fields.map Prod.fst)) (k : String) :
    List.Forall₂ Rearranged (Document.itemsNamed k fields) (Document.itemsNamed k fields') :=
  List.rel_flatMap (h.filter folded k) fun _ _ hf => hf.rearranged.items

end Rearranged

end ConfTree.Document
