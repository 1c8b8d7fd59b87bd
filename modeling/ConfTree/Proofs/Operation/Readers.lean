import ConfTree.Document.Text
import ConfTree.Proofs.Operation.Edits

/-!
# Readers

A reader builds the configuration of a document by primitive edits of an empty one. So whatever it
reads, the outcome is reached from an empty configuration by a sequence of changes
(`Format.read_grown`).
-/

namespace ConfTree

open ConfTree.Configuration Relation

namespace Edit

/-! ## Tables -/

section

variable {σ : Type} (r : Document.Reading σ)

mutual

/-- Reading the entries of a table makes changes only. -/
lemma Makes.readFields (target : NodeId) :
    ∀ fields : List (String × Document.Data σ), Makes Change (Document.readFields r target fields)
  | [] => .pure ()
  | (key, value) :: rest => by
    rw [Document.readFields]
    exact .ite (.bind (.setValue _ _) fun _ => Makes.readFields target rest)
      (.bind (Makes.readField target key value) fun _ => Makes.readFields target rest)

/-- Reading a field makes changes only. -/
lemma Makes.readField (target : NodeId) (key : String) :
    ∀ value : Document.Data σ, Makes Change (Document.readField r target key value)
  | .scalar s => by
    rw [Document.readField]
    exact .bind (.append _ _ _ _) fun _ => .pure ()
  | .array items => by
    rw [Document.readField]
    exact Makes.readItems target key items
  | .table fields => by
    rw [Document.readField]
    exact .bind (.append _ _ _ _) fun id => Makes.readFields id fields

/-- Reading the items of a field makes changes only. -/
lemma Makes.readItems (target : NodeId) (key : String) :
    ∀ items : List (Document.Data σ), Makes Change (Document.readItems r target key items)
  | [] => .pure ()
  | item :: items => by
    rw [Document.readItems]
    exact .bind (Makes.readItem target key item) fun _ => Makes.readItems target key items

/-- Reading an item makes changes only. -/
lemma Makes.readItem (target : NodeId) (key : String) :
    ∀ item : Document.Data σ, Makes Change (Document.readItem r target key item)
  | .scalar s => by
    rw [Document.readItem]
    exact .bind (.append _ _ _ _) fun _ => .pure ()
  | .array items => by
    rw [Document.readItem]
    exact .throw _
  | .table fields => by
    rw [Document.readItem]
    exact .bind (.append _ _ _ _) fun id => Makes.readFields id fields

end

end

/-- Filling the root from the value of an object document makes changes only. -/
lemma Makes.readRoot (value : Json.Value) : Makes Change (Json.readRoot value) := by
  cases value with
  | table fields => exact .readFields _ _ fields
  | array _ => exact .throw _
  | scalar s => exact .setValue _ _

/-! ## Brace notation -/

/-- Checking a name makes no changes. -/
lemma Makes.checkName (source : Brace.Source) (rest : List Char) (name : String) :
    Makes Change (Brace.checkName source rest name) := by
  unfold Brace.checkName
  split
  · exact .pure ()
  · exact .throw _

/-- Reading the entries of open sections makes changes only. -/
lemma Makes.readEntries (source : Brace.Source) (opened : List NodeId)
    (lexemes : List Brace.Lexeme) : Makes Change (Brace.readEntries source opened lexemes) := by
  fun_induction Brace.readEntries source opened lexemes with
  | case1 => exact .pure _
  | case2 => exact .throw _
  | case3 _ _ _ _ _ ih => exact ih
  | case4 => exact .throw _
  | case5 =>
    exact .bind (.throw _) fun _ => .bind (.checkName _ _ _) fun _ =>
      .bind (.append _ _ _ _) fun _ => .throw _
  | case6 => exact .bind (.checkName _ _ _) fun _ => .bind (.append _ _ _ _) fun _ => .throw _
  | case7 _ _ _ _ _ _ _ _ _ _ ihInner ihNext =>
    refine .bind (.checkName _ _ _) fun _ => .ite ?_ ?_
    · exact .bind (.append _ _ _ _) fun id => ihInner id
    · exact .bind (.append _ _ _ _) fun _ => ihNext

/-! ## Markup -/

variable (tokens : Xml.Tokenizer)

/-- The attributes of a tag are appended. -/
lemma Makes.addAttributes (id : NodeId) (failed : Bool)
    (attributes : List (List Char × List Char)) :
    Makes Change (Xml.addAttributes tokens id failed attributes) := by
  fun_induction Xml.addAttributes tokens id failed attributes with
  | case1 => exact .throw _
  | case2 => exact .pure ()
  | case3 => exact .throw _
  | case4 _ _ _ _ _ ih => exact .bind (.append _ _ _ _) fun _ => ih

/-- A tag appends a section and its attributes. -/
lemma Makes.openElement (frames : List Xml.Frame) (content : List Char) :
    Makes Change (Xml.openElement tokens frames content) := by
  cases frames with
  | nil => exact .throw _
  | cons frame _ =>
    exact .bind (.append _ _ _ _) fun id => .bind (.addAttributes tokens id _ _) fun _ => .pure id

/-- Events append nodes and set values. -/
lemma Makes.readEvents (failed : Bool) (frames : List Xml.Frame) (events : List Xml.Event) :
    Makes Change (Xml.readEvents tokens failed frames events) := by
  fun_induction Xml.readEvents tokens failed frames events with
  | case1 => exact .throw _
  | case2 => exact .pure ()
  | case3 => exact .throw _
  | case4 _ _ _ ih => exact .bind (.openElement tokens _ _) fun id => ih id
  | case5 _ _ _ ih => exact .bind (.openElement tokens _ _) fun _ => ih
  | case6 => exact .throw _
  | case7 _ _ _ _ _ _ ih => exact .bind (.setValue _ _) fun _ => ih
  | case8 _ _ _ _ _ ih => exact ih
  | case9 => exact .throw _
  | case10 _ _ _ _ _ _ ih => exact ih
  | case11 => exact .throw _
  | case12 _ _ _ _ _ _ _ ih => exact ih
  | case13 => exact .throw _
  | case14 _ _ _ _ ih => exact ih
  | case15 _ _ ih => exact ih

end Edit

/-! ## Documents -/

/-- The configuration comes out of an empty one by changes. -/
def Configuration.Grown (conf : Configuration) : Prop :=
  ∃ name, ReflTransGen Change (.withRoot name) conf

/-- What an edit that makes changes only leaves of an empty configuration has grown. -/
lemma Edit.Makes.grown {α : Type} {edit : Edit α} (h : Makes Change edit) {name : String}
    {out : Except ConfigError α} {conf : Configuration}
    (he : edit.apply (.withRoot name) = (out, conf)) : conf.Grown := by
  refine ⟨name, ?_⟩
  have := h (.withRoot name)
  rw [he] at this
  exact this

/-- A document in brace notation has grown. -/
lemma Brace.read_grown {text : String} {conf : Configuration} (h : Brace.read text = .ok conf) :
    conf.Grown := by
  obtain ⟨⟨header, rest⟩, -, h⟩ := bind_eq_ok h
  cases rest with
  | nil => cases h
  | cons l rest =>
    dsimp only at h
    split at h
    · cases h
    · obtain ⟨rest', -, h⟩ := bind_eq_ok h
      obtain ⟨u, -, h⟩ := bind_eq_ok h
      cases h
      have body : Edit.Makes Change (do
          Edit.setValue Configuration.root header.value
          readEntries ⟨lineEnds text.toList, (lex text.toList).2⟩ [Configuration.root] rest) :=
        .bind (.setValue _ _) fun _ => .readEntries _ _ _
      exact ⟨header.name, body _⟩

/-- A document in JSON has grown. -/
lemma Json.read_grown {text : String} {conf : Configuration} (h : Json.read text = .ok conf) :
    conf.Grown := by
  unfold Json.read at h
  split at h
  · cases h
  · unfold Json.configurationOf at h
    split at h
    · split at h
      · rename_i he
        cases h
        exact (Edit.Makes.readRoot _).grown he
      · cases h
    · cases h
    · cases h

/-- A document in TOML has grown. -/
lemma Toml.read_grown {text : String} {conf : Configuration} (h : Toml.read text = .ok conf) :
    conf.Grown := by
  unfold Toml.read at h
  split at h
  · cases h
  · split at h
    · rename_i he
      cases h
      exact (Edit.Makes.readFields _ _ _).grown he
    · cases h

/-- A markup document has grown, from the tag of its root on. -/
lemma Xml.readFrom_grown {tokens : Tokenizer} {failed : Bool} {content : List Char}
    {frames : List Frame}
    {events : List Event} {conf : Configuration}
    (h : readFrom tokens failed content frames events = .ok conf) : conf.Grown := by
  unfold readFrom at h
  dsimp only at h
  split at h
  · rename_i he
    cases h
    exact Edit.Makes.grown (.bind (.addAttributes tokens _ _ _) fun _ => .readEvents tokens _ _ _)
      he
  · cases h

/-- A markup document has grown. -/
lemma Xml.readDocument_grown {tokens : Tokenizer} {failed : Bool} {events : List Event}
    {conf : Configuration}
    (h : readDocument tokens failed events = .ok conf) : conf.Grown := by
  fun_induction readDocument tokens failed events with
  | case1 => cases h
  | case2 => exact readFrom_grown h
  | case3 => exact readFrom_grown h
  | case4 => cases h
  | case5 => cases h
  | case6 _ _ _ _ _ ih => exact ih h
  | case7 => cases h
  | case8 => cases h
  | case9 _ ih => exact ih h

/-- What is read from a document of any format has grown, but for the flags. -/
lemma Format.read_grown {format : Format} {text : String} {conf : Configuration}
    (h : format.read text = .ok conf) :
    ∃ grown : Configuration, grown.Grown ∧ conf = grown.resetModified := by
  obtain ⟨grown, hg, h⟩ := bind_eq_ok h
  cases h
  refine ⟨grown, ?_, rfl⟩
  cases format with
  | brace => exact Brace.read_grown hg
  | json => exact Json.read_grown hg
  | xml => exact Xml.readDocument_grown hg
  | toml => exact Toml.read_grown hg

end ConfTree
