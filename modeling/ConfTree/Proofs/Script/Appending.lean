import ConfTree.Proofs.Script.Independence

/-!
# Appending to a result

A script writes its result by appending: it adds a section with its attributes below another one,
fills it, and goes on behind it. `Appends` says of two states of the result that nothing but child
sections of given shapes was appended to a given section. Appending composes, and what is appended
to a section that was just added comes with it (`Open.section`).
-/

namespace ConfTree

open ConfTree.Configuration

namespace Configuration

/-- Nodes can be added below the section. -/
structure Open (conf : Configuration) (target : Nat) : Prop where
  wellFormed : conf.WellFormed
  writable : conf.readOnly = false
  isSection : conf.isSection target = true

/-- Child sections of these shapes are appended to the section, and nothing else is done. -/
structure Appends (target : Nat) (before after : Configuration) (cs : List Shape) : Prop where
  confined : Confined target before after
  shape : after.shape target = (before.shape target).extend [] cs

section

variable {a b c : Configuration} {target : Nat} {xs ys : List Shape}

/-- A section stays open as long as changes are confined to it. -/
lemma Open.of_confined (h : Open a target) (k : Confined target a b) : Open b target := by
  obtain ⟨d, live, sec⟩ := isSection_iff.1 h.isSection
  obtain ⟨e, live', kind, -⟩ := k.kept d live
  exact ⟨k.wellFormed, k.readOnly.trans h.writable, isSection_iff.2 ⟨e, live', kind.trans sec⟩⟩

/-- Nothing is appended to begin with. -/
lemma Appends.refl (h : Open a target) : Appends target a a [] :=
  ⟨.refl h.wellFormed, (Shape.extend_nil _).symm⟩

/-- Trees are appended behind earlier ones. -/
lemma Appends.trans (h : Open a target) (first : Appends target a b xs)
    (next : Appends target b c ys) : Appends target a c (xs ++ ys) :=
  ⟨first.confined.trans h.wellFormed next.confined, by
    rw [next.shape, first.shape, Shape.extend_extend, List.append_nil]⟩

end

end Configuration

section

variable {conf : Configuration} {target : Nat}

/-- To an open section a node of any name can be appended that is not blank. -/
lemma Edit.append_ok_iff (h : Open conf target) {kind : Kind} {name : String}
    {value : Option String} {id : NodeId} {conf' : Configuration} :
    (Edit.append kind target name value).apply conf = (.ok id, conf') ↔
      Text.trim name ≠ "" ∧ id = conf.nodes.size ∧
        conf' = conf.addNode kind target (Text.trim name) value := by
  obtain ⟨d, live, sec⟩ := isSection_iff.1 h.isSection
  have writable : conf.checkWritable = .ok () := checkWritable_ok.2 h.writable
  by_cases blank : Text.trim name = ""
  · have refused : requireName name = .error (.invalidName name) := by
      simp [requireName, validName?, blank]
    rw [Edit.append, Edit.apply_checked_error (by rw [writable, refused]; rfl)]
    simp [blank]
  · have good : GoodName (Text.trim name) := ⟨blank, Text.trim_trim _⟩
    rw [Edit.append, Edit.apply_checked_ok
      (appendable_iff.2 ⟨h.writable, rfl, good, d, live, sec⟩)]
    simp only [Prod.mk.injEq, Except.ok.injEq, ne_eq, blank, not_false_eq_true, true_and,
      eq_comm (b := id), eq_comm (b := conf')]

end

namespace Script

variable {conf : Configuration} {target : Nat}

/-- Attributes are appended as they are copied. -/
lemma appendAttributes_eq (target : NodeId) (attributes : List (String × Option String)) :
    appendAttributes target attributes =
      Edit.copyAttributes target (attributes.map fun a => ⟨root, a.1, a.2⟩) := by
  induction attributes with
  | nil => rfl
  | cons a attributes ih => simp only [appendAttributes, ih, List.map_cons, Edit.copyAttributes]

/-- Attributes with good names are appended to an open section. -/
lemma appendAttributes_spec (h : Open conf target) {attributes : List (String × Option String)}
    (good : ∀ a ∈ attributes, GoodName a.1) :
    ∃ conf', (appendAttributes target attributes).apply conf = (.ok (), conf') ∧
      Confined target conf conf' ∧
      conf'.shape target = (conf.shape target).extend attributes [] := by
  obtain ⟨d, live, sec⟩ := isSection_iff.1 h.isSection
  have pairs : (attributes.map fun a => (⟨root, a.1, a.2⟩ : Attribute)).map Attribute.pair =
      attributes := by
    rw [List.map_map]
    exact List.map_id attributes
  have named : ∀ a ∈ attributes.map fun a => (⟨root, a.1, a.2⟩ : Attribute), GoodName a.name := by
    intro a ha
    obtain ⟨b, hb, rfl⟩ := List.mem_map.1 ha
    exact good b hb
  have copied := Edit.copyAttributes_spec h.wellFormed h.writable live sec named
  rwa [pairs, ← appendAttributes_eq] at copied

/-- A section is added with its attributes. What is appended to it then comes with it. -/
lemma addSection_spec (h : Open conf target) {name : String} (value : Option String)
    (named : Text.trim name ≠ "") {attributes : List (String × Option String)}
    (good : ∀ a ∈ attributes, GoodName a.1) :
    ∃ added conf', (Edit.addSection target name value).apply conf =
        (.ok conf.nodes.size, added) ∧
      (appendAttributes conf.nodes.size attributes).apply added = (.ok (), conf') ∧
      Open conf' conf.nodes.size ∧
      ∀ {conf'' : Configuration} {cs : List Shape}, Appends conf.nodes.size conf' conf'' cs →
        Appends target conf conf'' [.mk (Text.trim name) value attributes cs] := by
  obtain ⟨d, live, sec⟩ := isSection_iff.1 h.isSection
  have goodName : GoodName (Text.trim name) := ⟨named, Text.trim_trim name⟩
  have step := Confined.addNode .sectionKind value h.wellFormed live sec goodName
  have new : Open (conf.addNode .sectionKind target (Text.trim name) value) conf.nodes.size :=
    ⟨step.wellFormed, step.readOnly.trans h.writable,
      isSection_iff.2 ⟨_, live?_addNode_new live, kind_new true _⟩⟩
  obtain ⟨conf', run, confined, shape⟩ := appendAttributes_spec new good
  refine ⟨_, conf', (Edit.append_ok_iff h).2 ⟨named, rfl, rfl⟩, run, new.of_confined confined, ?_⟩
  intro conf'' cs filled
  obtain ⟨whole, last⟩ :=
    (confined.trans step.wellFormed filled.confined).fill h.wellFormed live sec goodName
  refine ⟨whole, ?_⟩
  rw [last, filled.shape, shape, shape_addNode_new h.wellFormed live sec goodName,
    Shape.extend_extend, List.append_nil]
  rfl

/-- If a section was added with its attributes, what is appended to it then comes with it. -/
lemma addSection_ok (h : Open conf target) {name : String} {value : Option String}
    {attributes : List (String × Option String)} (good : ∀ a ∈ attributes, GoodName a.1)
    {id : NodeId} {added conf' : Configuration}
    (add : (Edit.addSection target name value).apply conf = (.ok id, added))
    (fills : (appendAttributes id attributes).apply added = (.ok (), conf')) :
    Open conf' id ∧ ∀ {conf'' : Configuration} {cs : List Shape}, Appends id conf' conf'' cs →
      Appends target conf conf'' [.mk (Text.trim name) value attributes cs] := by
  obtain ⟨named, -⟩ := (Edit.append_ok_iff h).1 add
  obtain ⟨_, _, add', fills', inner, fill⟩ := addSection_spec h value named good
  rw [add] at add'
  cases add'
  rw [fills] at fills'
  cases fills'
  exact ⟨inner, fill⟩

/-! ## The root of the result -/

/-- A result can be prepared for a header if it is writable and the name is not blank. -/
lemma prepare_spec (wf : conf.WellFormed) (writable : conf.readOnly = false) {header : Header}
    (named : Text.trim header.name ≠ "") (good : ∀ a ∈ header.attributes, GoodName a.1) :
    ∃ conf', (prepare header).apply conf = (.ok (), conf') ∧ Open conf' root ∧
      conf'.shape root = .mk (Text.trim header.name) header.value header.attributes [] := by
  have stored : requireName header.name = .ok (Text.trim header.name) :=
    requireName_ok.2 (validName?_eq_some.2 ⟨rfl, named⟩)
  have good' : GoodName (Text.trim header.name) := ⟨named, Text.trim_trim _⟩
  obtain ⟨d, hd, sec, -⟩ := wf.root
  have opened : Open (conf.bared (Text.trim header.name) header.value) root :=
    ⟨wf.bared good' header.value, readOnly_bared.trans writable,
      isSection_iff.2 ⟨_, live?_bared_root wf hd, (NodeData.kind_cleared true).trans sec⟩⟩
  obtain ⟨conf', run, confined, shape⟩ := appendAttributes_spec opened good
  refine ⟨conf', (prepare_apply wf writable stored).trans run, opened.of_confined confined, ?_⟩
  rw [shape, shape_bared wf good']
  rfl

/-- A result that could be prepared for a header was writable, and the name is not blank. -/
lemma prepare_ok (wf : conf.WellFormed) {header : Header} {conf' : Configuration}
    (h : (prepare header).apply conf = (.ok (), conf')) :
    conf.readOnly = false ∧ Text.trim header.name ≠ "" := by
  have writable : conf.readOnly = false := by
    obtain ⟨_, _, cleared, -⟩ := Edit.of_apply_bind_ok h
    by_contra frozen
    rw [Edit.clear, Edit.apply_refused (Bool.of_not_eq_false frozen) rfl] at cleared
    cases cleared
  refine ⟨writable, fun blank => ?_⟩
  have refused : requireName header.name = .error (.invalidName header.name) := by
    simp [requireName, validName?, blank]
  rw [prepare_refused wf writable refused] at h
  cases h

end Script

end ConfTree
