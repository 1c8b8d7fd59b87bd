import ConfTree.Document.Data
import ConfTree.Evaluation.Value
import ConfTree.Scalar
import ConfTree.Toml.Datetime

/-!
# Binding

A subtree is bound to a typed value: values are evaluated and taken for the scalars that they spell,
a section is a table, and the entries of one name are an array. A section that has nothing but a
value is a scalar.

A bound value is then read as what is asked for: as a map of scalars of one kind, or as any value.
Read as any value, a table that starts with the key of dates and times is a date or a time.
-/

namespace ConfTree

/-- A typed value. -/
abbrev TypedValue := Document.Data Scalar

namespace Binding

/-- The names of the group that `name` belongs to. -/
def groupOf (names : List String) (name : String) : List String :=
  names.filter (Text.sameName · name)

/-- The key of a group: the spelling that its names share, or else the name in ASCII lower case. -/
def groupKey (names : List String) (name : String) : String :=
  if (groupOf names name).all (· == name) then name else Text.fold name

/-- Appends an item to the array under a key. -/
def appendItem (key : String) (item : TypedValue) :
    List (String × TypedValue) → List (String × TypedValue)
  | [] => [(key, .array [item])]
  | (k, v) :: rest =>
    if k = key then
      match v with
      | .array items => (k, .array (items ++ [item])) :: rest
      | _ => (k, .array [item]) :: rest
    else (k, v) :: appendItem key item rest

/-- Puts a value under a key, in the place of one that is there. -/
def putValue (key : String) (value : TypedValue) :
    List (String × TypedValue) → List (String × TypedValue)
  | [] => [(key, value)]
  | (k, v) :: rest => if k = key then (k, value) :: rest else (k, v) :: putValue key value rest

/-- Adds an entry to a table whose entries have the given names. -/
def addEntry (names : List String) (fields : List (String × TypedValue)) (name : String)
    (value : TypedValue) : List (String × TypedValue) :=
  let key := groupKey names name
  if 1 < (groupOf names name).length then appendItem key value fields
  else putValue key value fields

variable (process : Host) (conf : Configuration)

/-- The scalar that an attribute is bound to. -/
def ofAttribute (id : NodeId) : Except ConfigError TypedValue := do
  let value ← conf.value? process id
  return .scalar (Scalar.ofText (value.getD ""))

/-- Adds the values of attributes to a table. -/
def addAttributes (names : List String) (fields : List (String × TypedValue)) :
    List Attribute → Except ConfigError (List (String × TypedValue))
  | [] => .ok fields
  | a :: rest => do
    let value ← ofAttribute process conf a.id
    addAttributes names (addEntry names fields a.name value) rest

mutual

/-- The value that a section is bound to. -/
def ofSection : Subtree → Except ConfigError TypedValue
  | .mk id _ _ attributes children => do
    let names := attributes.map (·.name) ++ children.map (·.name)
    if names.isEmpty then
      match ← conf.value? process id with
      | some value => return .scalar (Scalar.ofText value)
      | none => return .table []
    else
      let fields ← addAttributes process conf names [] attributes
      let fields ← addSections names fields children
      return .table fields

/-- Adds the values of child sections to a table. -/
def addSections (names : List String) (fields : List (String × TypedValue)) :
    List Subtree → Except ConfigError (List (String × TypedValue))
  | [] => .ok fields
  | t :: ts => do
    let value ← ofSection t
    addSections names (addEntry names fields t.name value) ts

end

/-- Entries in the order of their keys. -/
def sortedByKey {α : Type} (fields : List (String × α)) : List (String × α) :=
  fields.mergeSort fun a b => decide (a.1 ≤ b.1)

/-- The entries of a table whose values are all of one kind, in the order of their keys. -/
def mapOf {α : Type} (read : TypedValue → Option α) : TypedValue →
    Except ConfigError (List (String × α))
  | .table fields =>
    match fields.mapM fun f => (read f.2).map (f.1, ·) with
    | some entries => .ok (sortedByKey entries)
    | none => .error .unbindable
  | _ => .error .unbindable

/-- The integer of a scalar. -/
def integer? : TypedValue → Option Int
  | .scalar (.int i) => some i
  | _ => none

/-- The text of a scalar that is no other scalar. -/
def text? : TypedValue → Option String
  | .scalar (.text s) => some s
  | _ => none

mutual

/-- Reads any value. -/
def anyValue : TypedValue → Except ConfigError TypedValue
  | .scalar s => .ok (.scalar s)
  | .array items => return .array (← anyItems items)
  | .table fields => anyTable fields

/-- Reads the items of an array. -/
def anyItems : List TypedValue → Except ConfigError (List TypedValue)
  | [] => .ok []
  | item :: items => return (← anyValue item) :: (← anyItems items)

/-- Reads a table. One that starts with the key of dates and times has nothing but the text of a
date or a time under it, and is that text in its one form. -/
def anyTable : List (String × TypedValue) → Except ConfigError TypedValue
  | [] => .ok (.table [])
  | (key, value) :: rest =>
    if key = Toml.datetimeKey then
      match text? value, rest with
      | some s, [] =>
        match Toml.readDatetime s.toList with
        | some datetime => .ok (.scalar (.text (String.ofList datetime)))
        | none => .error .unbindable
      | _, _ => .error .unbindable
    else return .table ((key, ← anyValue value) :: (← anyFields rest))

/-- Reads the entries of a table after the first. -/
def anyFields : List (String × TypedValue) → Except ConfigError (List (String × TypedValue))
  | [] => .ok []
  | (key, value) :: rest => return (key, ← anyValue value) :: (← anyFields rest)

end

end Binding

/-- The typed value of a node. No node is an empty table. -/
def Configuration.bind (process : Host) (conf : Configuration) (node : Option NodeId) :
    Except ConfigError TypedValue :=
  match node.bind conf.liveId? with
  | none => .ok (.table [])
  | some id =>
    if conf.isSection id then Binding.ofSection process conf (conf.subtree id)
    else Binding.ofAttribute process conf id

end ConfTree
