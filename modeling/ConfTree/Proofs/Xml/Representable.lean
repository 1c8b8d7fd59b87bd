import ConfTree.Proofs.Xml.RoundTrip

/-!
# Documents that can be written again

The reader takes every name that separates from its surroundings in a tag, and stores it without the
blanks around it. The writer has a grammar of names. So a document that is read can be written again
if the names in its tags, as they are stored, keep to that grammar, and if no two attributes of a
tag come to have the same name (`read_write_again`). Texts, character data, comments, instructions
and document types are never in the way. What carries the proof is that the reader keeps every
configuration `Markable`, tag by tag.
-/

namespace ConfTree.Xml

/-! ## The tags of a document -/

/-- The content of the tag that opens an element. -/
def Event.tag? : Event → Option (List Char)
  | .opening content => some content
  | .single content => some content
  | _ => none

section

variable (tokens : Tokenizer)

/-- The tags of a document that open elements, without their brackets. -/
def tags (text : String) : List (List Char) := (tokens.events text.toList).1.filterMap Event.tag?

/-- A name as a node bears it, without the blanks around it. -/
def storedName (cs : List Char) : String := Text.trim (String.ofList cs)

/-- The names of a tag are markup names, and different names of its attributes, up to the first
fault, stay different. -/
structure Representable (content : List Char) : Prop where
  element : IsXmlName (storedName (tokens.name content))
  attributes : ∀ a ∈ (tokens.attributes content).1, IsXmlName (storedName a.1)
  apart : ∀ a ∈ (tokens.attributes content).1, ∀ b ∈ (tokens.attributes content).1,
    storedName a.1 = storedName b.1 → a.1 = b.1

instance (content : List Char) : Decidable (Representable tokens content) :=
  have (name : String) : Decidable (IsXmlName name) := decidable_of_iff _ isName_iff
  decidable_of_iff
    (IsXmlName (storedName (tokens.name content)) ∧
      (∀ a ∈ (tokens.attributes content).1, IsXmlName (storedName a.1)) ∧
      ∀ a ∈ (tokens.attributes content).1, ∀ b ∈ (tokens.attributes content).1,
        storedName a.1 = storedName b.1 → a.1 = b.1)
    ⟨fun h => ⟨h.1, h.2.1, h.2.2⟩, fun h => ⟨h.element, h.attributes, h.apart⟩⟩

end

variable {tokens : Tokenizer}

/-- The attributes of a tag that can be written come to have different names. -/
lemma Representable.nodup (faithful : tokens.Faithful) {content : List Char}
    (h : Representable tokens content) :
    ((tokens.attributes content).1.map fun a => storedName a.1).Nodup := by
  have spelled := faithful.distinct content
  refine List.Nodup.map_on (fun a ha b hb same => ?_) (List.Nodup.of_map _ spelled)
  exact List.inj_on_of_nodup_map spelled ha hb (h.apart a ha b hb same)

end ConfTree.Xml

namespace ConfTree.Configuration

open ConfTree.Xml

/-! ## Configurations with markup names -/

/-- All names are markup names, and no two attributes of a section have the same. -/
structure Markable (conf : Configuration) : Prop where
  wellFormed : conf.WellFormed
  named : ∀ id d, conf.live? id = some d → IsXmlName d.name
  nodup : ∀ id d, conf.live? id = some d → ((d.entries .attributeKind).map conf.nameOf).Nodup

variable {conf : Configuration} {kind : Kind} {parent id : Nat} {pd d : NodeData} {name : String}
  {value : Option String}

/-- A markable configuration can be written. -/
lemma Markable.not_unwritable (h : conf.Markable) : ¬ conf.Unwritable := by
  rintro ⟨id, d, live, bad | ⟨a, ha, b, hb, ne, same⟩⟩
  · exact bad (h.named id d live)
  · exact ne (List.inj_on_of_nodup_map (h.nodup id d live) ha hb same)

/-- An empty configuration with a markup name. -/
lemma Markable.withRoot {name : String} (h : IsXmlName (Text.trim name)) :
    (withRoot name).Markable := by
  have filled : Text.trim name ≠ "" := by
    intro blank
    obtain ⟨c, cs, spelled, -⟩ := h
    rw [blank] at spelled
    cases spelled
  have stored : (validName? name).getD defaultRootName = Text.trim name := by
    rw [validName?_eq_some.2 ⟨rfl, filled⟩]
    rfl
  have only : ∀ id d, (Configuration.withRoot name).live? id = some d →
      d = ⟨Text.trim name, none, none, .lists #[] #[], false, false⟩ := by
    intro id d live
    have lt := lt_size_of_live live
    have first : id = root := Nat.lt_one_iff.1 lt
    subst first
    rw [← stored]
    exact Option.some.inj live.symm
  refine ⟨wellFormed_withRoot name, fun id d live => ?_, fun id d live => ?_⟩
  · rw [only id d live]
    exact h
  · rw [only id d live]
    exact List.nodup_nil

/-- A configuration with the same names and lists of attributes. -/
lemma Markable.of_alike {conf' : Configuration} (h : conf.Markable) (wf : conf'.WellFormed)
    (alike : ∀ n, (conf'.live? n).map (fun d => (d.name, d.entries .attributeKind)) =
      (conf.live? n).map fun d => (d.name, d.entries .attributeKind)) : conf'.Markable := by
  have kept : ∀ n e, conf'.live? n = some e → ∃ d, conf.live? n = some d ∧ d.name = e.name ∧
      d.entries .attributeKind = e.entries .attributeKind := by
    intro n e live
    have same := alike n
    rw [live, Option.map_some, eq_comm, Option.map_eq_some_iff] at same
    obtain ⟨d, found, eq⟩ := same
    exact ⟨d, found, congrArg Prod.fst eq, congrArg Prod.snd eq⟩
  have names : ∀ n, conf'.nameOf n = conf.nameOf n := by
    intro n
    have same := congrArg (·.map Prod.fst) (alike n)
    simp only [Option.map_map] at same
    exact congrArg (·.getD "") same
  refine ⟨wf, fun n e live => ?_, fun n e live => ?_⟩
  · obtain ⟨d, found, name, -⟩ := kept n e live
    rw [← name]
    exact h.named n d found
  · obtain ⟨d, found, -, entries⟩ := kept n e live
    rw [← entries, List.map_congr_left fun a _ => names a]
    exact h.nodup n d found

/-- A new value of a node is no matter of names. -/
lemma Markable.replaceValue (h : conf.Markable) (id : Nat) (value : Option String) :
    (conf.replaceValue id value).Markable := by
  refine h.of_alike (h.wellFormed.replaceValue id value) fun n => ?_
  rw [live?_replaceValue]
  split
  · rw [Option.map_map]
    rfl
  · rfl

/-- What was modified is no matter of names. -/
lemma Markable.resetModified (h : conf.Markable) : conf.resetModified.Markable := by
  refine h.of_alike h.wellFormed.resetModified fun n => ?_
  rw [live?_resetModified, Option.map_map]
  rfl

section

variable (live : conf.live? parent = some pd) (sec : pd.kind = .sectionKind)

include live sec

/-- A new node with a markup name, which no attribute beside it has. -/
lemma Markable.addNode (h : conf.Markable) (good : GoodName name) (markup : IsXmlName name)
    (fresh : kind = .attributeKind → name ∉ (pd.entries .attributeKind).map conf.nameOf) :
    (conf.addNode kind parent name value).Markable := by
  have wf := h.wellFormed
  refine ⟨wf.addNode live sec good, fun n e he => ?_, fun n e he => ?_⟩
  · rcases of_live?_addNode live sec he with ⟨-, rfl⟩ | ⟨d, hd, -, -, same, -⟩
    · exact markup
    · rw [same]
      exact h.named n d hd
  · rcases of_live?_addNode live sec he with ⟨-, rfl⟩ | ⟨d, hd, -, -, -, -, entries⟩
    · rw [entries_new]
      exact List.nodup_nil
    · have old : (d.entries .attributeKind).map (conf.addNode kind parent name value).nameOf =
          (d.entries .attributeKind).map conf.nameOf :=
        map_nameOf_addNode wf live sec hd .attributeKind
      rw [entries]
      split
      · rename_i joined
        obtain ⟨rfl, same⟩ := joined
        rw [live] at hd
        cases hd
        rw [List.map_append, old, List.map_singleton, nameOf_addNode_new live]
        rw [← List.concat_eq_append]
        exact (List.nodup_concat _ _).2 ⟨fresh same.symm, h.nodup n pd live⟩
      · rw [old]
        exact h.nodup n d hd

end

end ConfTree.Configuration

namespace ConfTree.Xml

open ConfTree.Configuration

/-! ## Reading -/

/-- Appending a node fails and changes nothing, or adds it under its stored name to a section. -/
lemma append_cases (kind : Kind) (parent : NodeId) (name : String) (value : Option String)
    (conf : Configuration) :
    (∃ e, (Edit.append kind parent name value).apply conf = (.error e, conf)) ∨
      ∃ pd, conf.live? parent = some pd ∧ pd.kind = .sectionKind ∧ GoodName (Text.trim name) ∧
        (Edit.append kind parent name value).apply conf =
          (.ok conf.nodes.size, conf.addNode kind parent (Text.trim name) value) := by
  cases check : (do
      conf.checkWritable
      let name ← requireName name
      let _ ← conf.requireSection parent
      return name : Except ConfigError String) with
  | error e => exact .inl ⟨e, Edit.apply_checked_error check⟩
  | ok stored =>
    obtain ⟨-, rfl, good, pd, live, sec⟩ := appendable_iff.1 check
    exact .inr ⟨pd, live, sec, good, Edit.apply_checked_ok check⟩

variable {tokens : Tokenizer}

/-- Attributes with markup names are added to a section that has none of their names. -/
lemma addAttributes_markable (id : Nat) (failed : Bool) {attributes : List (List Char × List Char)}
    {conf : Configuration} (h : conf.Markable)
    (markup : ∀ a ∈ attributes, IsXmlName (storedName a.1))
    (nodup : (attributes.map fun a => storedName a.1).Nodup)
    (fresh : ∀ d, conf.live? id = some d →
      ∀ a ∈ attributes, storedName a.1 ∉ (d.entries .attributeKind).map conf.nameOf) :
    ((addAttributes tokens id failed attributes).apply conf).2.Markable := by
  induction attributes generalizing conf with
  | nil =>
    rw [addAttributes]
    cases failed <;> exact h
  | cons a attributes ih =>
    obtain ⟨name, raw⟩ := a
    obtain ⟨new, nodup⟩ := List.nodup_cons.1 nodup
    rw [addAttributes]
    cases tokens.resolve raw with
    | none => exact h
    | some value =>
      dsimp only [Edit.addAttribute]
      obtain ⟨e, refused⟩ | ⟨pd, live, sec, good, added⟩ := append_cases .attributeKind id
        (String.ofList name) (some (String.ofList value)) conf
      · rw [Edit.apply_bind, refused]
        exact h
      · rw [Edit.apply_bind_ok added]
        refine ih (h.addNode live sec good (markup (name, raw) List.mem_cons_self) fun _ => ?_)
          (fun a ha => markup a (List.mem_cons_of_mem _ ha)) nodup fun d hd a ha => ?_
        · exact fresh pd live (name, raw) List.mem_cons_self
        · rw [live?_addNode_parent live] at hd
          cases hd
          rw [NodeData.entries_push sec, if_pos rfl, List.map_append, List.map_singleton,
            map_nameOf_addNode h.wellFormed live sec live, nameOf_addNode_new live]
          intro again
          rcases List.mem_append.1 again with old | last
          · exact fresh pd live a (List.mem_cons_of_mem _ ha) old
          · exact new (List.mem_map.2 ⟨a, ha, List.mem_singleton.1 last⟩)

section

variable (faithful : tokens.Faithful)

include faithful

/-- The attributes of a tag are added to a section that has none. -/
lemma addTagAttributes_markable (id : Nat) {content : List Char} {conf : Configuration}
    (h : conf.Markable) (tag : Representable tokens content)
    (bare : ∀ d, conf.live? id = some d → d.entries .attributeKind = []) :
    ((addTagAttributes tokens id content).apply conf).2.Markable := by
  refine addAttributes_markable id _ h tag.attributes (tag.nodup faithful) fun d live a _ => ?_
  rw [bare d live]
  exact List.not_mem_nil

/-- Opening an element keeps all names markup names. -/
lemma openElement_keeps (frames : List Frame) {content : List Char}
    (tag : Representable tokens content) :
    Edit.Keeps Markable (openElement tokens frames content) fun _ => True := by
  intro conf h
  refine ⟨?_, fun _ _ => trivial⟩
  cases frames with
  | nil => exact h
  | cons frame frames =>
    rw [openElement, Edit.addSection]
    obtain ⟨e, refused⟩ | ⟨pd, live, sec, good, added⟩ := append_cases .sectionKind frame.id
      (String.ofList (tokens.name content)) none conf
    · rw [Edit.apply_bind, refused]
      exact h
    · rw [Edit.apply_bind_ok added]
      have named : (conf.addNode .sectionKind frame.id
          (Text.trim (String.ofList (tokens.name content)))
          none).Markable := h.addNode live sec good tag.element fun other => by cases other
      have opened := addTagAttributes_markable faithful conf.nodes.size named tag fun d hd => by
        rw [live?_addNode_new live] at hd
        cases hd
        exact entries_new _ _ _
      rw [Edit.apply_bind]
      split <;> rename_i ended <;> rw [ended] at opened <;> exact opened

/-- Reading events keeps all names markup names. -/
lemma readEvents_keeps (failed : Bool) (frames : List Frame) (events : List Event)
    (tags : ∀ content ∈ events.filterMap Event.tag?, Representable tokens content) :
    Edit.Keeps Markable (readEvents tokens failed frames events) fun _ => True := by
  have fails {e : ConfigError} : Edit.Keeps Markable (throw e : Edit Unit) fun _ => True :=
    fun conf h => ⟨h, nofun⟩
  have sets (id : NodeId) (value : Option String) :
      Edit.Keeps Markable (Edit.setValue id value) fun _ => True :=
    .checked fun conf _ h _ => ⟨h.replaceValue id value, trivial⟩
  fun_induction readEvents tokens failed frames events with
  | case1 | case3 | case6 | case9 | case11 | case13 => exact fails
  | case2 => exact .pure trivial
  | case4 _ _ _ ih =>
    obtain ⟨tag, others⟩ := List.forall_mem_cons.1 tags
    exact .bind (openElement_keeps faithful _ tag) fun id _ => ih id others
  | case5 _ _ _ ih =>
    obtain ⟨tag, others⟩ := List.forall_mem_cons.1 tags
    exact .bind (openElement_keeps faithful _ tag) fun _ _ => ih others
  | case7 _ _ _ _ _ _ ih => exact .bind (sets _ _) fun _ _ => ih tags
  | case8 _ _ _ _ _ ih => exact ih tags
  | case10 _ _ _ _ _ _ ih => exact ih tags
  | case12 _ _ _ _ _ _ _ ih => exact ih tags
  | case14 _ _ _ _ ih => exact ih tags
  | case15 _ _ ih => exact ih tags

/-- A document whose tags can be written is read into a configuration that can be. -/
lemma readFrom_markable {failed : Bool} {content : List Char} {frames : List Frame}
    {events : List Event} {conf : Configuration} (tag : Representable tokens content)
    (tags : ∀ content ∈ events.filterMap Event.tag?, Representable tokens content)
    (h : readFrom tokens failed content frames events = .ok conf) : conf.Markable := by
  have rooted : (Configuration.withRoot (String.ofList (tokens.name content))).Markable :=
    .withRoot tag.element
  have opened := addTagAttributes_markable faithful root rooted tag fun d live => by
    cases Option.some.inj live
    rfl
  have body : ((do
      addTagAttributes tokens root content
      readEvents tokens failed frames events : Edit Unit).apply
        (.withRoot (String.ofList (tokens.name content)))).2.Markable := by
    rw [Edit.apply_bind]
    split <;> rename_i ended <;> rw [ended] at opened
    · exact (readEvents_keeps faithful failed frames events tags _ opened).1
    · exact opened
  unfold readFrom at h
  dsimp only at h
  split at h
  · rename_i ended
    cases h
    rw [ended] at body
    exact body
  · cases h

/-- A document whose tags can be written is read into a configuration that can be. -/
lemma readDocument_markable {failed : Bool} {events : List Event} {conf : Configuration}
    (tags : ∀ content ∈ events.filterMap Event.tag?, Representable tokens content)
    (h : readDocument tokens failed events = .ok conf) : conf.Markable := by
  fun_induction readDocument tokens failed events with
  | case1 | case4 | case5 | case7 | case8 => cases h
  | case2 | case3 =>
    obtain ⟨tag, others⟩ := List.forall_mem_cons.1 tags
    exact readFrom_markable faithful tag others h
  | case6 _ _ _ _ _ ih => exact ih tags h
  | case9 _ ih => exact ih tags h

end

end ConfTree.Xml

namespace ConfTree.Configuration

open ConfTree.Xml

/-- With every faithful tokenizer, a document that is read can be written again if the names in its
tags can, and what is written is read back to a structurally equal configuration. -/
lemma exists_write_again {tokens : Tokenizer} (faithful : tokens.Faithful) {text : String}
    {conf : Configuration} (read : readWith tokens text = .ok conf)
    (names : ∀ content ∈ tags tokens text, Representable tokens content) :
    ∃ text' conf', Format.xml.write conf.resetModified (some root) = .ok text' ∧
      readWith tokens text' = .ok conf' ∧
      structurallyEqual conf'.resetModified (some root) conf.resetModified (some root) = true := by
  have markable := (readDocument_markable faithful names read).resetModified
  exact exists_write_read_equal faithful markable.wellFormed markable.not_unwritable

/-- A document that is read can be written again if the names in its tags can, and what is written
is read back to a structurally equal configuration. -/
theorem read_write_again {text : String} {conf : Configuration}
    (read : Format.xml.read text = .ok conf)
    (names : ∀ content ∈ tags tokenizer text, Representable tokenizer content) :
    ∃ text' conf', Format.xml.write conf (some root) = .ok text' ∧
      Format.xml.read text' = .ok conf' ∧
      structurallyEqual conf' (some root) conf (some root) = true := by
  obtain ⟨modified, document, read⟩ := bind_eq_ok read
  cases read
  obtain ⟨text', conf', written, again, equal⟩ :=
    exists_write_again faithful_tokenizer document names
  refine ⟨text', conf'.resetModified, written, ?_, equal⟩
  rw [Format.read, Format.readModified, Xml.read, again]
  rfl

/-- Instructions, comments, mixed text and character data are not in the way, nor is a blank behind
a name that the reader does not take for a space. -/
theorem read_write_again_mixed :
    let text := "<?go now?><!-- one --><app mode\u00a0='a&amp;b'> main <db/><!-- two -->" ++
      "<raw x='1'><![CDATA[ <x> ]]></raw>tail</app>"
    ∃ conf text' conf', Format.xml.read text = .ok conf ∧
      Format.xml.write conf (some root) = .ok text' ∧
      Format.xml.read text' = .ok conf' ∧
      structurallyEqual conf' (some root) conf (some root) = true := by
  intro text
  have accepted : (Format.xml.read text).isOk = true := by decide +kernel
  obtain ⟨conf, read⟩ := isOk_iff.1 accepted
  exact ⟨conf, (read_write_again read (by decide +kernel)).imp fun text' h =>
    h.imp fun conf' h => ⟨read, h⟩⟩

/-- What is read cannot always be written again: names with a prefix, a name that starts with a
digit, and two attributes whose names differ in a blank only. -/
theorem not_read_write_again_names :
    (∃ conf, Format.xml.read "<x:a/>" = .ok conf ∧
      Format.xml.write conf (some root) = .error (.unwritable .xml (.invalidName "x:a"))) ∧
    (∃ conf, Format.xml.read "<a><1b/></a>" = .ok conf ∧
      Format.xml.write conf (some root) = .error (.unwritable .xml (.invalidName "1b"))) ∧
    ∃ conf, Format.xml.read "<a b='1' b\u00a0='2'/>" = .ok conf ∧
      Format.xml.write conf (some root) =
        .error (.unwritable .xml (.duplicateAttribute "b" "/")) := by
  have refused {text : String} {e : ConfigError} (accepted : (Format.xml.read text).isOk = true)
      (unwritten : (do Format.xml.write (← Format.xml.read text) (some root)) = .error e) :
      ∃ conf, Format.xml.read text = .ok conf ∧ Format.xml.write conf (some root) = .error e := by
    obtain ⟨conf, read⟩ := isOk_iff.1 accepted
    rw [read, ok_bind] at unwritten
    exact ⟨conf, read, unwritten⟩
  refine ⟨refused ?_ ?_, refused ?_ ?_, refused ?_ ?_⟩
  all_goals decide +kernel

end ConfTree.Configuration
