import ConfTree.Proofs.Document.Folding

/-!
# What tables are read as

The reader takes the fields of a table one by one, and the entries of each in their order. If every
key can name a node and no array holds another (`ReadableFields`), it succeeds, and the attributes
and the sections in the fields come last in the section that is read into (`readFields_fills`).
-/

namespace ConfTree.Document

open ConfTree.Configuration ConfTree.Text

variable {σ : Type} {r : Reading σ}

/-! ## Tables as trees -/

/-- The value that the fields leave to a section, of which the last reserved one counts. -/
def ownValue (r : Reading σ) (value : Option String) : List (String × Data σ) → Option String
  | [] => value
  | (key, data) :: rest =>
    ownValue r (if key = sectionValueKey then r.dataText data else value) rest

/-- The attribute that an entry is read as. -/
def attributesIn (r : Reading σ) (key : String) : Data σ → List (String × Option String)
  | .scalar s => [(key, r.scalarText s)]
  | _ => []

/-- The attributes that fields are read as. -/
def attributesOf (r : Reading σ) (fields : List (String × Data σ)) :
    List (String × Option String) :=
  fields.flatMap fun f =>
    if f.1 = sectionValueKey then [] else f.2.items.flatMap (attributesIn r f.1)

mutual

/-- The sections that fields are read as. -/
def sectionsOf (r : Reading σ) : List (String × Data σ) → List Shape
  | [] => []
  | (key, data) :: rest =>
    (if key = sectionValueKey then [] else sectionsIn r key data) ++ sectionsOf r rest

/-- The sections that the entries of a field are read as. -/
def sectionsIn (r : Reading σ) (key : String) : Data σ → List Shape
  | .scalar _ => []
  | .array items => sectionsInAll r key items
  | .table fields =>
    [.mk key (ownValue r none fields) (attributesOf r fields) (sectionsOf r fields)]

/-- The sections that entries are read as. -/
def sectionsInAll (r : Reading σ) (key : String) : List (Data σ) → List Shape
  | [] => []
  | item :: items => sectionsIn r key item ++ sectionsInAll r key items

end

/-- The section that a table is read as. -/
def sectionOf (r : Reading σ) (name : String) (fields : List (String × Data σ)) : Shape :=
  .mk name (ownValue r none fields) (attributesOf r fields) (sectionsOf r fields)

/-- The sections in items are those of each item in turn. -/
lemma sectionsInAll_eq (key : String) (items : List (Data σ)) :
    sectionsInAll r key items = items.flatMap (sectionsIn r key) := by
  induction items with
  | nil => rfl
  | cons item items ih => rw [sectionsInAll, ih, List.flatMap_cons]

/-- The sections of a field are those of its items. -/
lemma sectionsIn_eq (key : String) (data : Data σ) :
    sectionsIn r key data = data.items.flatMap (sectionsIn r key) := by
  cases data with
  | scalar s => rfl
  | array items => rw [sectionsIn, sectionsInAll_eq, Data.items]
  | table fields => simp [Data.items]

/-- The sections of a table are those of its fields, but for the field with the own value. -/
lemma sectionsOf_eq (fields : List (String × Data σ)) :
    sectionsOf r fields = fields.flatMap fun f =>
      if f.1 = sectionValueKey then [] else f.2.items.flatMap (sectionsIn r f.1) := by
  induction fields with
  | nil => rfl
  | cons f fields ih =>
    obtain ⟨key, data⟩ := f
    rw [sectionsOf, ih, sectionsIn_eq, List.flatMap_cons]

/-! ## Readable tables -/

mutual

/-- Every key can name a node, and no array holds another. -/
def ReadableFields : List (String × Data σ) → Prop
  | [] => True
  | (key, data) :: rest =>
    (key = sectionValueKey ∨ GoodName key ∧ ReadableField data) ∧ ReadableFields rest

/-- The field holds entries. -/
def ReadableField : Data σ → Prop
  | .scalar _ => True
  | .array items => ReadableItems items
  | .table fields => ReadableFields fields

/-- The items are entries. -/
def ReadableItems : List (Data σ) → Prop
  | [] => True
  | item :: items => ReadableItem item ∧ ReadableItems items

/-- The item is an entry. -/
def ReadableItem : Data σ → Prop
  | .scalar _ => True
  | .array _ => False
  | .table fields => ReadableFields fields

end

/-- Items are readable if each of them is. -/
lemma readableItems_iff {items : List (Data σ)} :
    ReadableItems items ↔ ∀ item ∈ items, ReadableItem item := by
  induction items with
  | nil => simp [ReadableItems]
  | cons item items ih => simp [ReadableItems, ih]

/-- A field is readable if its items are. -/
lemma readableField_iff {data : Data σ} :
    ReadableField data ↔ ∀ item ∈ data.items, ReadableItem item := by
  cases data with
  | scalar s => simp [ReadableField, ReadableItem, Data.items]
  | array items => rw [ReadableField, readableItems_iff, Data.items]
  | table fields => simp [ReadableField, ReadableItem, Data.items]

/-- A table is readable if its entries are. -/
lemma readableFields_iff {fields : List (String × Data σ)} :
    ReadableFields fields ↔ ∀ f ∈ fields, f.1 = sectionValueKey ∨
      GoodName f.1 ∧ ∀ item ∈ f.2.items, ReadableItem item := by
  induction fields with
  | nil => simp [ReadableFields]
  | cons f fields ih =>
    obtain ⟨key, data⟩ := f
    simp [ReadableFields, ih, readableField_iff]

/-! ## Reading -/

/-- In every writable configuration the edit succeeds, changes nothing but the section, gives it a
value and puts attributes and child sections behind those that it has. -/
def Fills (edit : Edit Unit) (target : Nat) (value : Option String → Option String)
    (attributes : List (String × Option String)) (children : List Shape) : Prop :=
  ∀ (conf : Configuration) d, conf.WellFormed → conf.readOnly = false →
    conf.live? target = some d → d.kind = .sectionKind →
    ∃ conf', edit.apply conf = (.ok (), conf') ∧ Confined target conf conf' ∧
      conf'.shape target = .mk (conf.shape target).name (value (conf.shape target).value)
        ((conf.shape target).attributes ++ attributes) ((conf.shape target).children ++ children)

namespace Fills

variable {edit edit' : Edit Unit} {target : Nat} {value value' : Option String → Option String}
  {attributes attributes' : List (String × Option String)} {children children' : List Shape}
  {key : String}

/-- To do nothing fills in nothing. -/
lemma nothing : Fills (pure ()) target (fun value => value) [] [] := by
  intro conf d wf _ _ _
  refine ⟨conf, rfl, .refl wf, ?_⟩
  rw [List.append_nil, List.append_nil]
  cases conf.shape target
  rfl

/-- One edit after the other puts its entries behind those of the other. -/
lemma bind (first : Fills edit target value attributes children)
    (second : Fills edit' target value' attributes' children') :
    Fills (edit >>= fun _ => edit') target (fun v => value' (value v)) (attributes ++ attributes')
      (children ++ children') := by
  intro conf d wf writable live sec
  obtain ⟨conf₁, run₁, confined₁, shape₁⟩ := first conf d wf writable live sec
  obtain ⟨e, he, kind, -⟩ := confined₁.kept d live
  obtain ⟨conf₂, run₂, confined₂, shape₂⟩ := second conf₁ e confined₁.wellFormed
    (confined₁.readOnly.trans writable) he (kind.trans sec)
  refine ⟨conf₂, ?_, confined₁.trans wf confined₂, ?_⟩
  · rw [Edit.apply_bind_ok run₁]
    exact run₂
  · rw [shape₂, shape₁, ← List.append_assoc, ← List.append_assoc]
    rfl

/-- To set the value fills in the value only. -/
lemma setValue (text : Option String) :
    Fills (Edit.setValue target text) target (fun _ => text) [] [] := by
  intro conf d wf writable live _
  refine ⟨_, Edit.apply_setValue writable live, .replaceValue target text wf, ?_⟩
  rw [shape_replaceValue wf live, List.append_nil, List.append_nil, name_shape wf live]

/-- To add an attribute fills in this attribute only. -/
lemma addAttribute (good : GoodName key) (text : Option String) :
    Fills (do let _ ← Edit.addAttribute target key text) target (fun value => value)
      [(key, text)] [] := by
  intro conf d wf writable live sec
  refine ⟨_, ?_, .addNode .attributeKind text wf live sec good, ?_⟩
  · rw [Edit.addAttribute, Edit.apply_bind_ok (Edit.apply_append writable live sec good)]
    rfl
  · rw [shape_addNode_attribute wf live sec good]
    rfl

/-- A new section that is filled comes last. -/
lemma addSection (good : GoodName key) {fill : NodeId → Edit Unit}
    (filled : ∀ id, Fills (fill id) id value attributes children) :
    Fills (do let id ← Edit.addSection target key none; fill id) target (fun value => value) []
      [.mk key (value none) attributes children] := by
  intro conf d wf writable live sec
  have step := Confined.addNode .sectionKind none wf live sec good
  have new : (conf.addNode .sectionKind target key none).live? conf.nodes.size = some _ :=
    live?_addNode_new live
  obtain ⟨conf₁, run₁, confined₁, shape₁⟩ := filled conf.nodes.size _ _ step.wellFormed
    (step.readOnly.trans writable) new (kind_new true _)
  obtain ⟨confined, last⟩ := confined₁.fill wf live sec good
  refine ⟨conf₁, ?_, confined, ?_⟩
  · rw [Edit.addSection, Edit.apply_bind_ok (Edit.apply_append writable live sec good)]
    exact run₁
  · rw [last, shape₁, shape_addNode_new wf live sec good]
    rfl

end Fills

mutual

/-- A readable table is read as its value, its attributes and its sections. -/
lemma readFields_fills (target : NodeId) : ∀ {fields : List (String × Data σ)},
    ReadableFields fields → Fills (readFields r target fields) target (ownValue r · fields)
      (attributesOf r fields) (sectionsOf r fields)
  | [], _ => .nothing
  | (key, data) :: rest, ⟨first, later⟩ => by
    have after := readFields_fills target later
    rw [readFields, attributesOf, List.flatMap_cons, ← attributesOf, sectionsOf]
    by_cases reserved : key = sectionValueKey
    · rw [if_pos reserved, if_pos reserved, if_pos reserved]
      simp only [ownValue, if_pos reserved]
      exact (Fills.setValue _).bind after
    · obtain ⟨good, readable⟩ := first.resolve_left reserved
      rw [if_neg reserved, if_neg reserved, if_neg reserved]
      simp only [ownValue, if_neg reserved]
      exact (readField_fills target good readable).bind after

/-- The entries of a readable field are read as attributes and sections. -/
lemma readField_fills (target : NodeId) {key : String} (good : GoodName key) :
    ∀ {data : Data σ}, ReadableField data → Fills (readField r target key data) target
      (fun value => value) (data.items.flatMap (attributesIn r key)) (sectionsIn r key data)
  | .scalar s, _ => by
    rw [readField]
    exact .addAttribute good _
  | .array items, readable => by
    rw [readField, sectionsIn]
    exact readItems_fills target good readable
  | .table fields, readable => by
    rw [readField, sectionsIn]
    exact .addSection good fun id => readFields_fills id readable

/-- Readable items are read as attributes and sections. -/
lemma readItems_fills (target : NodeId) {key : String} (good : GoodName key) :
    ∀ {items : List (Data σ)}, ReadableItems items → Fills (readItems r target key items) target
      (fun value => value) (items.flatMap (attributesIn r key)) (sectionsInAll r key items)
  | [], _ => .nothing
  | item :: items, ⟨first, later⟩ => by
    rw [readItems, List.flatMap_cons, sectionsInAll]
    exact (readItem_fills target good first).bind (readItems_fills target good later)

/-- A readable item is read as an attribute or a section. -/
lemma readItem_fills (target : NodeId) {key : String} (good : GoodName key) :
    ∀ {item : Data σ}, ReadableItem item → Fills (readItem r target key item) target
      (fun value => value) (attributesIn r key item) (sectionsIn r key item)
  | .scalar s, _ => by
    rw [readItem]
    exact .addAttribute good _
  | .table fields, readable => by
    rw [readItem, sectionsIn]
    exact .addSection good fun id => readFields_fills id readable

end

end ConfTree.Document
