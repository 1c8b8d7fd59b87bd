import ConfTree.Proofs.Tree.Change
import ConfTree.Proofs.Xml.Tokens

/-!
# What is written of a tree

The writer gives a text exactly for the trees that are `Writable`, and what it gives is
`elementChars` (`elementLines_ok`). The scanner finds the events `elementEvents` in it
(`scans_elementChars`). Both go by induction over the tree.
-/

namespace ConfTree

namespace Subtree

mutual

/-- Names are markup names, and no name comes twice in a tag. -/
def Writable : Subtree → Prop
  | .mk _ name _ attributes children =>
    Xml.IsXmlName name ∧ (∀ a ∈ attributes, Xml.IsXmlName a.name) ∧
      (attributes.map Attribute.name).Nodup ∧ AllWritable children

/-- Each of the subtrees can be written. -/
def AllWritable : List Subtree → Prop
  | [] => True
  | t :: ts => t.Writable ∧ AllWritable ts

end

end Subtree

namespace Xml

/-! ## The characters of a tree -/

/-- An attribute as it stands in a tag. -/
def spelled (a : Attribute) : List Char × List Char :=
  (a.name.toList, attributeChars (a.value.getD "").toList)

/-- The content of a tag. -/
def tagSource (name : String) (attributes : List Attribute) : List Char :=
  name.toList ++ (attributes.map spelled).flatMap attributeSpelling

/-- A line end, and the blanks in front of what follows. -/
def lineStart (depth : Nat) : List Char := '\n' :: indentation depth

/-- The closing tag of an element, on a line of its own if there are child elements. -/
def closingChars (depth : Nat) (name : String) (children : List Subtree) : List Char :=
  (if children.isEmpty then [] else lineStart depth) ++ '<' :: '/' :: (name.toList ++ ['>'])

mutual

/-- An element without the blanks in front of it and the line end behind it. -/
def elementChars (depth : Nat) : Subtree → List Char
  | .mk _ name value attributes children =>
    if (value.getD "").toList.isEmpty && children.isEmpty then
      '<' :: (tagSource name attributes ++ ['/', '>'])
    else
      '<' :: (tagSource name attributes ++ '>' :: (cdataChars (value.getD "").toList ++
        (elementsChars (depth + 1) children ++ closingChars depth name children)))

/-- Elements, each on a line of its own. -/
def elementsChars (depth : Nat) : List Subtree → List Char
  | [] => []
  | t :: ts => lineStart depth ++ (elementChars depth t ++ elementsChars depth ts)

end

/-! ## What the writer gives -/

/-- A name is written as it is if it keeps to the grammar. -/
lemma nameChars_ok {name : String} {cs : List Char} :
    nameChars name = .ok cs ↔ IsXmlName name ∧ cs = name.toList := by
  rw [← isName_iff, nameChars]
  split <;> simp [*, eq_comm]

/-- The attributes of a tag are written if their names are markup names, and differ. -/
lemma attributesChars_ok {path : String} {seen : List String} {attributes : List Attribute}
    {cs : List Char} :
    attributesChars path seen attributes = .ok cs ↔
      (∀ a ∈ attributes, IsXmlName a.name) ∧
        ((attributes.map Attribute.name).Nodup ∧ ∀ a ∈ attributes, a.name ∉ seen) ∧
          cs = (attributes.map spelled).flatMap attributeSpelling := by
  induction attributes generalizing seen cs with
  | nil => simp [attributesChars, eq_comm]
  | cons a attributes ih =>
    rw [distinct_cons, List.forall_mem_cons]
    constructor
    · intro h
      obtain ⟨tag, name, h⟩ := bind_eq_ok h
      obtain ⟨named, rfl⟩ := nameChars_ok.1 name
      split at h
      · cases h
      rename_i fresh
      obtain ⟨others, written, h⟩ := bind_eq_ok h
      obtain ⟨names, apart, rfl⟩ := ih.1 written
      cases h
      refine ⟨⟨named, names⟩, ⟨by simpa using fresh, apart⟩, ?_⟩
      simp [spelled, attributeSpelling]
    · rintro ⟨⟨named, names⟩, ⟨fresh, apart⟩, rfl⟩
      rw [attributesChars, nameChars_ok.2 ⟨named, rfl⟩, ok_bind, if_neg (by simpa using fresh),
        ih.2 ⟨names, apart, rfl⟩, ok_bind, List.map_cons, List.flatMap_cons]
      simp [spelled, attributeSpelling, pure, Except.pure]

/-- Elements on lines of their own start with a line end, and so does what follows them. -/
lemma exists_lineEnd (depth : Nat) (ts : List Subtree) :
    ∃ cs, '\n' :: cs = elementsChars depth ts ++ ['\n'] := by
  cases ts with
  | nil => exact ⟨[], rfl⟩
  | cons t ts => exact ⟨_, rfl⟩

/-- What the writer puts between the tags of an element. -/
lemma append_closingChars {depth : Nat} {name : String} {children : List Subtree}
    {inner : List Char} (h : '\n' :: inner = elementsChars (depth + 1) children ++ ['\n']) :
    (if children.isEmpty then [] else '\n' :: inner ++ indentation depth) ++
        '<' :: '/' :: (name.toList ++ ['>']) =
      elementsChars (depth + 1) children ++ closingChars depth name children := by
  cases children with
  | nil => simp [elementsChars, closingChars]
  | cons t ts =>
    rw [List.isEmpty_cons, if_neg Bool.false_ne_true, h]
    simp [closingChars, lineStart]

mutual

/-- What can be written of a section, and how it is written. -/
lemma elementLines_ok {pathOf : NodeId → String} {depth : Nat} {cs : List Char} :
    ∀ {t : Subtree}, elementLines pathOf depth t = .ok cs ↔
      t.Writable ∧ cs = indentation depth ++ (elementChars depth t ++ ['\n'])
  | .mk id name value attributes children => by
    constructor
    · intro h
      obtain ⟨tag, hn, h⟩ := bind_eq_ok h
      obtain ⟨named, rfl⟩ := nameChars_ok.1 hn
      obtain ⟨inTag, ha, h⟩ := bind_eq_ok h
      obtain ⟨names, ⟨nodup, -⟩, rfl⟩ := attributesChars_ok.1 ha
      by_cases bare : ((value.getD "").toList.isEmpty && children.isEmpty) = true
      · obtain ⟨-, none⟩ := Bool.and_eq_true_iff.1 bare
        obtain rfl := List.isEmpty_iff.1 none
        simp only [if_pos bare] at h
        cases h
        refine ⟨⟨named, names, nodup, trivial⟩, ?_⟩
        rw [elementChars, if_pos bare]
        simp [tagSource]
      · simp only [if_neg bare] at h
        obtain ⟨inner, hc, h⟩ := bind_eq_ok h
        obtain ⟨writables, lines⟩ := elementsLines_ok.1 hc
        cases h
        refine ⟨⟨named, names, nodup, writables⟩, ?_⟩
        rw [elementChars, if_neg bare, ← append_closingChars lines]
        simp [tagSource]
    · rintro ⟨⟨named, names, nodup, writables⟩, rfl⟩
      have hn := nameChars_ok.2 ⟨named, rfl⟩
      have ha : attributesChars (pathOf id) [] attributes =
          .ok ((attributes.map spelled).flatMap attributeSpelling) :=
        attributesChars_ok.2 ⟨names, ⟨nodup, by simp⟩, rfl⟩
      rw [elementLines, hn, ok_bind, ha, ok_bind, elementChars]
      by_cases bare : ((value.getD "").toList.isEmpty && children.isEmpty) = true
      · simp only [if_pos bare]
        simp [tagSource, pure, Except.pure]
      · obtain ⟨inner, lines⟩ := exists_lineEnd (depth + 1) children
        have hc : elementsLines pathOf (depth + 1) children = .ok inner :=
          elementsLines_ok.2 ⟨writables, lines⟩
        simp only [if_neg bare, hc, ok_bind, ← append_closingChars lines]
        simp [tagSource, pure, Except.pure]

/-- What can be written of sections, and how they are written. -/
lemma elementsLines_ok {pathOf : NodeId → String} {depth : Nat} {cs : List Char} :
    ∀ {ts : List Subtree}, elementsLines pathOf depth ts = .ok cs ↔
      Subtree.AllWritable ts ∧ '\n' :: cs = elementsChars depth ts ++ ['\n']
  | [] => by
    rw [elementsLines, elementsChars, Subtree.AllWritable]
    simp [eq_comm]
  | t :: ts => by
    constructor
    · intro h
      obtain ⟨first, writtenFirst, h⟩ := bind_eq_ok h
      obtain ⟨others, writtenOthers, h⟩ := bind_eq_ok h
      obtain ⟨writable, rfl⟩ := elementLines_ok.1 writtenFirst
      obtain ⟨writables, rest⟩ := elementsLines_ok.1 writtenOthers
      cases h
      refine ⟨⟨writable, writables⟩, ?_⟩
      simp [elementsChars, lineStart, rest]
    · rintro ⟨⟨writable, writables⟩, eq⟩
      obtain ⟨others, lines⟩ := exists_lineEnd depth ts
      rw [elementsLines, elementLines_ok.2 ⟨writable, rfl⟩, ok_bind,
        elementsLines_ok.2 ⟨writables, lines⟩, ok_bind]
      -- Both sides start with the line end in front of the first element.
      refine congrArg Except.ok (List.cons.inj (?_ : '\n' :: _ = '\n' :: cs)).2
      rw [eq, elementsChars, List.append_assoc (lineStart depth), List.append_assoc _ _ ['\n'],
        ← lines, lineStart]
      simp

end

/-! ## The events of a tree -/

/-- The events from the last child element on. -/
def closingEvents (depth : Nat) (children : List Subtree) : List Event :=
  if children.isEmpty then [.closing] else [.text (lineStart depth), .closing]

mutual

/-- The events of an element. -/
def elementEvents (depth : Nat) : Subtree → List Event
  | .mk _ name value attributes children =>
    if (value.getD "").toList.isEmpty && children.isEmpty then [.single (tagSource name attributes)]
    else
      .opening (tagSource name attributes) :: ((cdataTexts (value.getD "").toList).map .cdata ++
        (elementsEvents (depth + 1) children ++ closingEvents depth children))

/-- The events of elements, each on a line of its own. -/
def elementsEvents (depth : Nat) : List Subtree → List Event
  | [] => []
  | t :: ts => .text (lineStart depth) :: (elementEvents depth t ++ elementsEvents depth ts)

end

/-- An attribute with a markup name can be told from what stands around it. -/
lemma separable_spelled {a : Attribute} (named : IsXmlName a.name) : Separable (spelled a) where
  nonempty := named.chars.1
  name := named.chars.2
  quoted := notMem_attributeChars (by decide) _
  alone := notMem_attributeChars (by decide) _

/-- The attributes of a tag can be told from each other. -/
lemma separable_attributes {attributes : List Attribute}
    (names : ∀ a ∈ attributes, IsXmlName a.name) :
    ∀ a ∈ attributes.map spelled, Separable a := by
  intro a ha
  obtain ⟨b, hb, rfl⟩ := List.mem_map.1 ha
  exact separable_spelled (names b hb)

/-- An attribute passes as a part of a tag, in which no other tag starts. -/
lemma Separable.passes {a : List Char × List Char} (h : Separable a) :
    Passes none (attributeSpelling a) none ∧ '<' ∉ attributeSpelling a := by
  refine ⟨.cons (fun rest => rfl) (.append (.of_name h.name)
    (.cons (fun rest => rfl) (.of_quoted h.quoted))), ?_⟩
  have inName : '<' ∉ a.1 := fun hc => ne_of_isNameChar (h.name _ hc) (by decide) rfl
  simp [attributeSpelling, inName, h.alone]

/-- Attributes pass as parts of a tag, in which no other tag starts. -/
lemma passes_attributes {attributes : List (List Char × List Char)}
    (separable : ∀ a ∈ attributes, Separable a) :
    Passes none (attributes.flatMap attributeSpelling) none ∧
      '<' ∉ attributes.flatMap attributeSpelling := by
  induction attributes with
  | nil => exact ⟨.nil, List.not_mem_nil⟩
  | cons a attributes ih =>
    obtain ⟨first, separable⟩ := List.forall_mem_cons.1 separable
    rw [List.flatMap_cons, List.mem_append, not_or]
    exact ⟨first.passes.1.append (ih separable).1, first.passes.2, (ih separable).2⟩

/-- What is written as the content of a tag is one. -/
lemma isTag_tagSource {name : String} {attributes : List Attribute} (named : IsXmlName name)
    (names : ∀ a ∈ attributes, IsXmlName a.name) : IsTag (tagSource name attributes) := by
  obtain ⟨nonempty, chars⟩ := named.chars
  obtain ⟨passes, alone⟩ := passes_attributes (separable_attributes names)
  have inName : '<' ∉ name.toList := fun hc => ne_of_isNameChar (chars _ hc) (by decide) rfl
  refine ⟨?_, ?_, .append (.of_name chars) passes⟩
  · obtain ⟨c, cs, eq⟩ := List.exists_cons_of_ne_nil nonempty
    exact ⟨c, _, by rw [tagSource, eq, List.cons_append], chars c (eq ▸ List.mem_cons_self)⟩
  · rw [tagSource, List.mem_append, not_or]
    exact ⟨inName, alone⟩

/-- The name at the front of a tag is the name that was written. -/
lemma tagName_tagSource {name : String} (named : IsXmlName name) (attributes : List Attribute) :
    tagName (tagSource name attributes) = name.toList :=
  (tagName_append named.chars.2 (head?_spellings _)).1

/-- A tag that is written does not end with a slash. -/
lemma getLast?_tagSource {name : String} {attributes : List Attribute} (named : IsXmlName name) :
    (tagSource name attributes).getLast? ≠ some '/' := by
  rcases attributes.eq_nil_or_concat with rfl | ⟨front, a, rfl⟩
  · intro last
    rw [tagSource, List.map_nil, List.flatMap_nil, List.append_nil] at last
    exact ne_of_isNameChar (named.chars.2 _ (List.mem_of_getLast? last)) (by decide) rfl
  · -- It ends with the quote behind its last value.
    obtain ⟨cs, quoted⟩ : ∃ cs, tagSource name (front.concat a) = cs ++ ['"'] := by
      refine ⟨name.toList ++ ((front.map spelled).flatMap attributeSpelling ++ ' ' ::
        (a.name.toList ++ '=' :: '"' :: attributeChars (a.value.getD "").toList)), ?_⟩
      simp [tagSource, spelled, attributeSpelling]
    rw [quoted, List.getLast?_concat]
    decide

variable {opened : List (List Char)}

/-- The sections of character data are events of their own. -/
lemma scans_cdata {texts : List (List Char)} (unmarked : ∀ t ∈ texts, ¬ endMark <:+: t)
    {cs : List Char} {es : List Event} (h : Scans opened cs es) :
    Scans opened (texts.flatMap cdataSection ++ cs) (texts.map .cdata ++ es) := by
  induction texts with
  | nil => exact h
  | cons text texts ih =>
    obtain ⟨first, others⟩ := List.forall_mem_cons.1 unmarked
    rw [List.flatMap_cons, List.append_assoc]
    exact .cdata first (ih others)

/-- Blanks between elements are a text. -/
lemma Scans.lineStart (depth : Nat) {cs : List Char} {es : List Event} (starts : StartsMarkup cs)
    (h : Scans opened cs es) :
    Scans opened (lineStart depth ++ cs) (.text (lineStart depth) :: es) := by
  refine .text (List.cons_ne_nil _ _) ?_ starts h
  simp [Xml.lineStart, indentation]

/-- An element starts with its tag. -/
lemma startsMarkup_element (depth : Nat) (t : Subtree) (cs : List Char) :
    StartsMarkup (elementChars depth t ++ cs) := by
  obtain ⟨_, name, value, attributes, children⟩ := t
  rw [elementChars]
  split
  · rintro c ⟨⟩
    rfl
  · rintro c ⟨⟩
    rfl

/-- The closing tag of an element, behind its child elements. -/
lemma scans_closing (depth : Nat) {name : String} (named : IsXmlName name)
    (children : List Subtree) {cs : List Char} {es : List Event} (h : Scans opened cs es) :
    Scans (name.toList :: opened) (closingChars depth name children ++ cs)
      (closingEvents depth children ++ es) := by
  have tag : Scans (name.toList :: opened) ('<' :: '/' :: (name.toList ++ '>' :: cs))
      (.closing :: es) := .closing named.chars.2 h
  unfold closingChars closingEvents
  split
  · simpa using tag
  · have starts : StartsMarkup ('<' :: '/' :: (name.toList ++ '>' :: cs)) := by
      rintro c ⟨⟩
      rfl
    simpa using tag.lineStart depth starts

mutual

/-- The scanner finds the events of a written element. -/
lemma scans_element (depth : Nat) {opened : List (List Char)} {cs : List Char} {es : List Event}
    (h : Scans opened cs es) : ∀ {t : Subtree}, t.Writable →
      Scans opened (elementChars depth t ++ cs) (elementEvents depth t ++ es)
  | .mk _ name value attributes children, ⟨named, names, _, writables⟩ => by
    have tag := isTag_tagSource named names
    rw [elementChars, elementEvents]
    split
    · have single := Scans.single tag h
      simpa using single
    · -- From the closing tag to the front.
      have closing := scans_closing depth named children h
      have unmarked : ∀ t ∈ cdataTexts (value.getD "").toList, ¬ endMark <:+: t :=
        fun t => unmarked_cdataTexts
      have inner := scans_cdata unmarked (scans_elements (depth + 1) closing writables)
      rw [← tagName_tagSource named attributes] at inner
      have opening := Scans.opening tag (getLast?_tagSource named) inner
      rw [← cdataChars_eq] at opening
      simpa using opening

/-- The scanner finds the events of written elements. -/
lemma scans_elements (depth : Nat) {opened : List (List Char)} {cs : List Char} {es : List Event}
    (h : Scans opened cs es) : ∀ {ts : List Subtree}, Subtree.AllWritable ts →
      Scans opened (elementsChars depth ts ++ cs) (elementsEvents depth ts ++ es)
  | [], _ => h
  | t :: ts, ⟨writable, writables⟩ => by
    have first := scans_element depth (scans_elements depth h writables) writable
    have line := first.lineStart depth (startsMarkup_element depth t _)
    rw [elementsChars, elementsEvents]
    simpa using line

end

/-! ## The text of a document -/

/-- What the text of a document is. -/
lemma write_eq_ok {pathOf : NodeId → String} {t : Subtree} {text : String} :
    write pathOf t = .ok text ↔ t.Writable ∧ text = String.ofList (elementChars 0 t ++ ['\n']) := by
  simp only [write, bind_eq_ok_iff, elementLines_ok]
  constructor
  · rintro ⟨cs, ⟨writable, rfl⟩, h⟩
    cases h
    exact ⟨writable, rfl⟩
  · rintro ⟨writable, rfl⟩
    exact ⟨_, ⟨writable, rfl⟩, rfl⟩

/-- The events of a written document are those of its tree, and the line end behind it. -/
lemma Tokenizer.Faithful.events_write {tokens : Tokenizer} (faithful : tokens.Faithful)
    {t : Subtree}
    (writable : t.Writable) :
    tokens.events (elementChars 0 t ++ ['\n']) = (elementEvents 0 t ++ [.text ['\n']], false) := by
  have plain : '<' ∉ ['\n'] := by decide
  have lineEnd : Scans [] (['\n'] ++ []) [.text ['\n']] :=
    .text (List.cons_ne_nil _ _) plain (by rintro c ⟨⟩) .nil
  exact faithful.events (scans_element 0 lineEnd writable) (startsMarkup_element 0 t _)

end Xml

end ConfTree
