import ConfTree.Proofs.Tree.Comparison
import ConfTree.Proofs.Tree.Copy
import ConfTree.Proofs.Xml.Writing

/-!
# Reading what was written

To read the events of a tree inside an open element is to append what markup says of the tree to it
(`readEvents_element`), and this makes a child section whose shape is the normal form of the tree's
(`copyElements_spec`). The blanks between elements do not count, and the texts of character data are
collected until the element is closed.
-/

namespace ConfTree.Xml

/-! ## What markup says of a tree -/

/-- An attribute with the value that its tag says. -/
def statedAttribute (a : Attribute) : Attribute := { a with value := some (a.value.getD "") }

/-- Sets the value of an element, unless it is empty. -/
def setElementValue (id : NodeId) (value : Option String) : Edit Unit :=
  match nonEmpty? value with
  | none => pure ()
  | some v => Edit.setValue id (some v)

mutual

/-- Gives a section what markup says of a tree besides its name. -/
def fillElement (id : NodeId) : Subtree → Edit Unit
  | .mk _ _ value attributes children => do
    Edit.copyAttributes id (attributes.map statedAttribute)
    copyElements id children
    setElementValue id value

/-- Appends what markup says of trees to the child sections of `parent`. -/
def copyElements (parent : NodeId) : List Subtree → Edit Unit
  | [] => pure ()
  | t :: ts => do
    let id ← Edit.addSection parent t.name none
    fillElement id t
    copyElements parent ts

end

/-- Of a section with neither a value nor child sections, only attributes are to be said. -/
lemma fillElement_bare {id source : NodeId} {name : String} {value : Option String}
    {attributes : List Attribute} {children : List Subtree}
    (bare : ((value.getD "").toList.isEmpty && children.isEmpty) = true) :
    fillElement id (.mk source name value attributes children) =
      Edit.copyAttributes id (attributes.map statedAttribute) := by
  obtain ⟨empty, childless⟩ := Bool.and_eq_true_iff.1 bare
  obtain rfl := List.isEmpty_iff.1 childless
  have noValue : nonEmpty? value = nonEmpty? none := nonEmpty?_congr (by simpa using empty)
  rw [fillElement, copyElements, setElementValue, noValue, pure_bind]
  exact bind_pure _

/-! ## Reading tags -/

variable {tokens : Tokenizer} {failed : Bool} {frame : Frame} {outer frames : List Frame}
  {events : List Event}

section

variable (faithful : tokens.Faithful)

include faithful

/-- The attributes of a tag are added with the values that it says. -/
lemma addAttributes_spelled (id : NodeId) (attributes : List Attribute) :
    addAttributes tokens id false (attributes.map spelled) =
      Edit.copyAttributes id (attributes.map statedAttribute) := by
  induction attributes with
  | nil => rfl
  | cons a attributes ih =>
    simp only [List.map_cons, spelled, addAttributes, faithful.resolve (refers_attributeChars _),
      ih, Edit.copyAttributes, statedAttribute, String.ofList_toList]

/-- A written tag says the attributes that it was written for. -/
lemma addTagAttributes_tagSource (id : NodeId) {name : String} {attributes : List Attribute}
    (named : IsXmlName name) (names : ∀ a ∈ attributes, IsXmlName a.name)
    (nodup : (attributes.map Attribute.name).Nodup) :
    addTagAttributes tokens id (tagSource name attributes) =
      Edit.copyAttributes id (attributes.map statedAttribute) := by
  have apart : ((attributes.map spelled).map Prod.fst).Nodup := by
    have spelling : (attributes.map spelled).map Prod.fst =
        (attributes.map Attribute.name).map String.toList := by
      rw [List.map_map, List.map_map]
      rfl
    rw [spelling]
    exact nodup.map fun _ _ => String.toList_inj.1
  rw [addTagAttributes, tagSource,
    faithful.attributes named.chars.2 (separable_attributes names) apart]
  exact addAttributes_spelled faithful id attributes

/-- The name of a written tag is taken as it was written. -/
lemma name_tagSource {name : String} (named : IsXmlName name) (attributes : List Attribute) :
    String.ofList (tokens.name (tagSource name attributes)) = name := by
  rw [tagSource, faithful.name named.chars.2 (head?_spellings _), String.ofList_toList]

/-- A tag inside an open element adds a section. -/
lemma openElement_tagSource {name : String} {attributes : List Attribute}
    (named : IsXmlName name) (names : ∀ a ∈ attributes, IsXmlName a.name)
    (nodup : (attributes.map Attribute.name).Nodup) :
    openElement tokens (frame :: outer) (tagSource name attributes) = (do
      let id ← Edit.addSection frame.id name none
      Edit.copyAttributes id (attributes.map statedAttribute)
      return id) := by
  simp only [openElement, name_tagSource faithful named attributes,
    addTagAttributes_tagSource faithful _ named names nodup]

/-! ## Reading texts -/

/-- Blanks between elements do not count. -/
lemma readEvents_lineStart (depth : Nat) :
    readEvents tokens failed frames (.text (lineStart depth) :: events) =
      readEvents tokens failed frames events := by
  have plain : '&' ∉ lineStart depth := by simp [lineStart, indentation]
  have blank : (lineStart depth).all Text.isBlank = true := by
    simp [lineStart, indentation, Text.isBlank]
  rw [readEvents, faithful.resolve (.of_plain plain)]
  simp only [blank, if_true]

end

/-- The texts of character data are collected as they stand. -/
lemma readEvents_cdata {id : NodeId} {text : List Char} {verbatim : Bool}
    (texts : List (List Char)) :
    readEvents tokens failed (⟨id, text, verbatim⟩ :: outer) (texts.map .cdata ++ events) =
      readEvents tokens failed
        (⟨id, text ++ texts.flatten, verbatim || !texts.isEmpty⟩ :: outer) events := by
  induction texts generalizing text verbatim with
  | nil => simp
  | cons first texts ih =>
    rw [List.map_cons, List.cons_append, readEvents, ih]
    simp

/-- What was collected is the value of the element. -/
lemma value?_collected (id : NodeId) (value : Option String) :
    Frame.value? ⟨id, [] ++ (cdataTexts (value.getD "").toList).flatten,
      false || !(cdataTexts (value.getD "").toList).isEmpty⟩ = nonEmpty? value := by
  rw [flatten_cdataTexts, List.nil_append, Bool.false_or]
  unfold Frame.value?
  cases value with
  | none => rfl
  | some v =>
    by_cases empty : v = ""
    · subst empty
      rfl
    · have some_text : (cdataTexts v.toList).isEmpty = false := by
        rw [List.isEmpty_eq_false_iff, ne_eq, cdataTexts_eq_nil]
        simpa using empty
      have kept : nonEmpty? (some v) = some v := by
        rw [nonEmpty?, Option.filter_some, if_pos (by simpa using empty)]
      simp [some_text, kept]

section

variable (faithful : tokens.Faithful)

include faithful

/-- A closed element gets its value. -/
lemma readEvents_closing (depth : Nat) (children : List Subtree) {value : Option String}
    (h : frame.value? = nonEmpty? value) :
    readEvents tokens failed (frame :: outer) (closingEvents depth children ++ events) = (do
      setElementValue frame.id value
      readEvents tokens failed outer events) := by
  have closing : readEvents tokens failed (frame :: outer) (.closing :: events) = (do
      setElementValue frame.id value
      readEvents tokens failed outer events) := by
    rw [readEvents, h, setElementValue]
    cases nonEmpty? value <;> rfl
  unfold closingEvents
  split
  · exact closing
  · rw [List.cons_append, readEvents_lineStart faithful]
    exact closing

/-! ## Reading elements -/

/-- What stands between the tags of an element goes into its section, if its child elements do. -/
lemma readEvents_content (depth : Nat) (id : NodeId) (value : Option String)
    {children : List Subtree}
    (inner : ∀ (frame : Frame) (outer : List Frame) (events : List Event),
      readEvents tokens failed (frame :: outer)
          (elementsEvents (depth + 1) children ++ events) = (do
        copyElements frame.id children
        readEvents tokens failed (frame :: outer) events)) :
    readEvents tokens failed (⟨id, [], false⟩ :: outer)
        ((cdataTexts (value.getD "").toList).map .cdata ++
          (elementsEvents (depth + 1) children ++ (closingEvents depth children ++ events))) = (do
      copyElements id children
      setElementValue id value
      readEvents tokens failed outer events) := by
  rw [readEvents_cdata, inner]
  simp only [readEvents_closing faithful depth children (value?_collected id value)]

mutual

/-- To read the events of an element is to append what it says. -/
lemma readEvents_element (depth : Nat) {frame : Frame} {outer : List Frame} {events : List Event} :
    ∀ {t : Subtree}, t.Writable →
      readEvents tokens failed (frame :: outer) (elementEvents depth t ++ events) = (do
        let id ← Edit.addSection frame.id t.name none
        fillElement id t
        readEvents tokens failed (frame :: outer) events)
  | .mk _ name value attributes children, ⟨named, names, nodup, writables⟩ => by
    rw [elementEvents]
    split
    · rename_i bare
      simp only [List.singleton_append, readEvents,
        openElement_tagSource faithful named names nodup, fillElement_bare bare, bind_assoc,
        pure_bind, Subtree.name]
    · have inside := fun id => @readEvents_content tokens failed (frame :: outer) events faithful
        depth id value children fun frame outer events => readEvents_elements (depth + 1) writables
      simp only [List.cons_append, List.append_assoc, readEvents,
        openElement_tagSource faithful named names nodup, inside, fillElement, bind_assoc,
        pure_bind, Subtree.name]

/-- To read the events of elements is to append what they say. -/
lemma readEvents_elements (depth : Nat) {frame : Frame} {outer : List Frame} {events : List Event} :
    ∀ {ts : List Subtree}, Subtree.AllWritable ts →
      readEvents tokens failed (frame :: outer) (elementsEvents depth ts ++ events) = (do
        copyElements frame.id ts
        readEvents tokens failed (frame :: outer) events)
  | [], _ => by
    rw [elementsEvents, copyElements, pure_bind]
    rfl
  | t :: ts, ⟨writable, writables⟩ => by
    rw [elementsEvents, List.cons_append, readEvents_lineStart faithful, List.append_assoc,
      readEvents_element depth writable]
    simp only [readEvents_elements depth writables, copyElements, bind_assoc]

end

/-- Behind the root only a line end is left. -/
lemma readEvents_end : readEvents tokens false [] [.text ['\n']] = pure () :=
  readEvents_lineStart faithful 0

/-- To read a written document is to fill an empty configuration. -/
lemma readWith_elementChars {t : Subtree} (writable : t.Writable) {conf : Configuration}
    (run : (fillElement Configuration.root t).apply (.withRoot t.name) = (.ok (), conf)) :
    readWith tokens (String.ofList (elementChars 0 t ++ ['\n'])) = .ok conf := by
  have events := faithful.events_write writable
  obtain ⟨id, name, value, attributes, children⟩ := t
  obtain ⟨named, names, nodup, writables⟩ := writable
  rw [readWith, String.toList_ofList, events]
  -- What is done behind the tag of the root is to fill it.
  have filled : ∀ {frames : List Frame} {es : List Event},
      (do addTagAttributes tokens Configuration.root (tagSource name attributes)
          readEvents tokens false frames es : Edit Unit) =
        fillElement Configuration.root (.mk id name value attributes children) →
      readFrom tokens false (tagSource name attributes) frames es = .ok conf := by
    intro frames es same
    rw [readFrom]
    simp only [name_tagSource faithful named attributes, same]
    rw [Subtree.name] at run
    simp only [run]
  simp only [elementEvents]
  split
  · rename_i bare
    refine filled ?_
    rw [addTagAttributes_tagSource faithful _ named names nodup, fillElement_bare bare,
      List.append_eq, List.nil_append, readEvents_end faithful]
    exact bind_pure _
  · refine filled ?_
    rw [addTagAttributes_tagSource faithful _ named names nodup, List.append_eq, List.append_assoc,
      List.append_assoc, readEvents_content faithful 0 _ value fun frame outer events =>
        readEvents_elements faithful 1 writables, readEvents_end faithful, fillElement]
    simp only [bind_pure_unit]

end

/-! ## What is read -/

open ConfTree.Configuration

/-- A section without a value gets the one that is not empty. -/
lemma setElementValue_spec {conf : Configuration} (wf : conf.WellFormed)
    (writable : conf.readOnly = false) {id : Nat} {d : NodeData} (h : conf.live? id = some d)
    (value : Option String) {name : String} {attributes : List (String × Option String)}
    {children : List Shape} (shape : conf.shape id = .mk name none attributes children) :
    ∃ conf', (setElementValue id value).apply conf = (.ok (), conf') ∧ Confined id conf conf' ∧
      conf'.shape id = .mk name (nonEmpty? value) attributes children := by
  rw [setElementValue]
  cases nonEmpty? value with
  | none => exact ⟨conf, rfl, .refl wf, shape⟩
  | some v =>
    refine ⟨_, Edit.apply_setValue writable h, .replaceValue id (some v) wf, ?_⟩
    rw [shape_replaceValue wf h, (of_shape_eq wf h shape).1, shape]
    rfl

mutual

/-- An empty section that is filled has the normal form of the tree. -/
lemma fillElement_spec {conf : Configuration} (wf : conf.WellFormed)
    (writable : conf.readOnly = false) {id : Nat} {d : NodeData} (h : conf.live? id = some d)
    (sec : d.kind = .sectionKind) : ∀ {t : Subtree}, t.Named →
      conf.shape id = .mk t.name none [] [] →
      ∃ conf', (fillElement id t).apply conf = (.ok (), conf') ∧ Confined id conf conf' ∧
        conf'.shape id = t.shape.normal
  | .mk _ name value attributes children, ⟨_, goodAttributes, goodChildren⟩, empty => by
    have good : ∀ a ∈ attributes.map statedAttribute, GoodName a.name := by
      intro a ha
      obtain ⟨b, hb, rfl⟩ := List.mem_map.1 ha
      exact goodAttributes b hb
    obtain ⟨conf₁, run₁, confined₁, shape₁⟩ := Edit.copyAttributes_spec wf writable h sec good
    obtain ⟨e, he, kind, -⟩ := confined₁.kept d h
    have writable₁ := confined₁.readOnly.trans writable
    obtain ⟨conf₂, run₂, confined₂, shape₂⟩ := copyElements_spec confined₁.wellFormed writable₁ he
      (kind.trans sec) goodChildren
    obtain ⟨f, hf, -⟩ := confined₂.kept e he
    rw [shape₁, empty, Shape.extend_extend] at shape₂
    obtain ⟨conf₃, run₃, confined₃, shape₃⟩ := setElementValue_spec confined₂.wellFormed
      (confined₂.readOnly.trans writable₁) hf value shape₂
    refine ⟨conf₃, ?_, (confined₁.trans wf confined₂).trans wf confined₃, ?_⟩
    · rw [fillElement, Edit.apply_bind_ok run₁, Edit.apply_bind_ok run₂, run₃]
    · rw [shape₃]
      simp [Subtree.shape, Shape.normal, Shape.attributes, Shape.children, Shape.name,
        Subtree.name, Function.comp_def, Attribute.pair, Shape.normalPair, statedAttribute]

/-- Child sections come last, each in the normal form of its tree. -/
lemma copyElements_spec {conf : Configuration} (wf : conf.WellFormed)
    (writable : conf.readOnly = false) {parent : Nat} {d : NodeData}
    (h : conf.live? parent = some d) (sec : d.kind = .sectionKind) :
    ∀ {ts : List Subtree}, Subtree.AllNamed ts →
      ∃ conf', (copyElements parent ts).apply conf = (.ok (), conf') ∧
        Confined parent conf conf' ∧
        conf'.shape parent = (conf.shape parent).extend [] (Shape.normals (Subtree.shapes ts))
  | [], _ => ⟨conf, rfl, .refl wf, by rw [Subtree.shapes, Shape.normals, Shape.extend_nil]⟩
  | t :: ts, ⟨first, rest⟩ => by
    have good : GoodName t.name := by
      obtain ⟨_, name, value, attributes, children⟩ := t
      exact first.1
    have step := Confined.addNode .sectionKind none wf h sec good
    have new : (conf.addNode .sectionKind parent t.name none).live? conf.nodes.size = some _ :=
      live?_addNode_new h
    obtain ⟨conf₁, run₁, filled, shape₁⟩ := fillElement_spec step.wellFormed
      (step.readOnly.trans writable) new (kind_new true _) first
      (shape_addNode_new wf h sec good)
    obtain ⟨confined₁, last⟩ := filled.fill wf h sec good
    obtain ⟨e, he, kind, -⟩ := confined₁.kept d h
    obtain ⟨conf₂, run₂, confined₂, shape₂⟩ := copyElements_spec confined₁.wellFormed
      (confined₁.readOnly.trans writable) he (kind.trans sec) rest
    refine ⟨conf₂, ?_, confined₁.trans wf confined₂, ?_⟩
    · rw [copyElements, Edit.addSection, Edit.apply_bind_ok (Edit.apply_append writable h sec good),
        Edit.apply_bind_ok run₁]
      exact run₂
    · rw [shape₂, last, shape₁, Shape.extend_extend]
      rfl

end

end ConfTree.Xml
