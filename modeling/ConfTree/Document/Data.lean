import ConfTree.Tree.Subtree

/-!
# Documents of tables and arrays

Two of the formats write a section as a table: its attributes are scalars, its child sections are
tables, and entries of one name are collected in an array. The value of a section stands under a
reserved key. The scalars differ from format to format, the rest is here.
-/

namespace ConfTree.Document

/-- The value of a document over the scalars `σ` of its format. -/
inductive Data (σ : Type) where
  | scalar (s : σ)
  | array (items : List (Data σ))
  | table (fields : List (String × Data σ))

/-- The key of a section's own value. -/
def sectionValueKey : String := "-section-value"

variable {σ : Type}

/-- Adds an entry to a table. An entry whose name is there already, in any ASCII case, joins the
entry under that key in an array. -/
def addField (fields : List (String × Data σ)) (name : String) (value : Data σ) :
    List (String × Data σ) :=
  match fields with
  | [] => [(name, value)]
  | (key, first) :: rest =>
    if Text.sameName key name then
      match first with
      | .array items => (key, .array (items ++ [value])) :: rest
      | first => (key, .array [first, value]) :: rest
    else (key, first) :: addField rest name value

/-- Adds the attributes of a section. -/
def addAttributes (ofText : Option String → σ) (fields : List (String × Data σ)) :
    List Attribute → List (String × Data σ)
  | [] => fields
  | a :: rest => addAttributes ofText (addField fields a.name (.scalar (ofText a.value))) rest

mutual

/-- The table of a section. -/
def sectionFields (ofText : Option String → σ) : Subtree → List (String × Data σ)
  | .mk _ _ value attributes children =>
    let own := match value with
      | some v => [(sectionValueKey, .scalar (ofText (some v)))]
      | none => []
    addSections ofText (addAttributes ofText own attributes) children

/-- Adds child sections to a table. -/
def addSections (ofText : Option String → σ) (fields : List (String × Data σ)) :
    List Subtree → List (String × Data σ)
  | [] => fields
  | t :: ts =>
    addSections ofText (addField fields t.name (.table (sectionFields ofText t))) ts

end

/-- How a format's data become values of nodes. -/
structure Reading (σ : Type) where
  format : Format
  /-- The text of a scalar. -/
  scalarText : σ → Option String
  /-- The text of any data, which the reserved key may hold. -/
  dataText : Data σ → Option String

mutual

/-- Reads the entries of a table into a section. -/
def readFields (r : Reading σ) (target : NodeId) : List (String × Data σ) → Edit Unit
  | [] => pure ()
  | (key, value) :: rest => do
    if key = sectionValueKey then Edit.setValue target (r.dataText value)
    else readField r target key value
    readFields r target rest

/-- Reads an entry of a table. -/
def readField (r : Reading σ) (target : NodeId) (key : String) : Data σ → Edit Unit
  | .scalar s => do
    let _ ← Edit.addAttribute target key (r.scalarText s)
  | .array items => readItems r target key items
  | .table fields => do
    let id ← Edit.addSection target key none
    readFields r id fields

/-- Reads the items of an array as entries of one name. -/
def readItems (r : Reading σ) (target : NodeId) (key : String) : List (Data σ) → Edit Unit
  | [] => pure ()
  | item :: items => do
    readItem r target key item
    readItems r target key items

/-- Reads an item of an array. -/
def readItem (r : Reading σ) (target : NodeId) (key : String) : Data σ → Edit Unit
  | .scalar s => do
    let _ ← Edit.addAttribute target key (r.scalarText s)
  | .array _ => throw (.unparsable r.format (.nestedArray key))
  | .table fields => do
    let id ← Edit.addSection target key none
    readFields r id fields

end

end ConfTree.Document
