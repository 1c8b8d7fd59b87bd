import ConfTree.Toml.Datetime
import ConfTree.Toml.Value

/-!
# Tables under construction

A table is filled by its own header, by the headers of the tables below it, by dotted keys, or all
at once in braces. How it came to be decides what may still be added to it, so a draft keeps that
until the document is complete.
-/

namespace ConfTree.Toml

/-- How a table came to be. -/
inductive Origin where
  /-- By a header of its own, or as the root. -/
  | header
  /-- By a header of a table below it. -/
  | implied
  /-- By a dotted key. -/
  | dotted
  /-- In braces. -/
  | inline
  deriving DecidableEq, Repr

/-- A value under construction. -/
inductive Draft where
  | scalar (s : Scalar)
  | array (items : List Draft)
  | table (origin : Origin) (fields : List (String × Draft))
  /-- Tables under repeated headers, last first. -/
  | tables (items : List (List (String × Draft)))

namespace Draft

/-- The entries of a table under construction. -/
abbrev Fields := List (String × Draft)

/-- Changes an entry in its place, or appends one. -/
def alter (key : String) (change : Option Draft → Option Draft) : Fields → Option Fields
  | [] => (change none).map fun d => [(key, d)]
  | (k, d) :: rest =>
    if k = key then (change (some d)).map fun d => (k, d) :: rest
    else (alter key change rest).map ((k, d) :: ·)

/-- Changes the table under a path, and makes the tables on the path that are not there. Headers
lead through any table but one in braces, dotted keys only through tables without a header. -/
def atPath (dotted : Bool) (change : Origin → Fields → Option Fields) :
    List String → Origin → Fields → Option Fields
  | [], origin, fields => change origin fields
  | key :: path, _, fields =>
    alter key
      (fun d? => match d? with
        | none =>
          let origin := if dotted then .dotted else .implied
          (atPath dotted change path origin []).map (table origin)
        | some (table origin inner) =>
          if origin = .inline || (dotted && origin = .header) then none
          else (atPath dotted change path origin inner).map (table origin)
        | some (tables (last :: before)) =>
          (atPath dotted change path .header last).map fun last => tables (last :: before)
        | some _ => none)
      fields

/-- Adds an entry that is not there yet. -/
def addNew (key : String) (value : Draft) (fields : Fields) : Option Fields :=
  alter key (fun d? => if d?.isSome then none else some value) fields

/-- Adds the entry of a key with dots, whose last part is `key`. The table that a path of dots leads
to takes entries by dots only. -/
def addEntry (path : List String) (key : String) (value : Draft) (origin : Origin)
    (fields : Fields) : Option Fields :=
  atPath true
    (fun origin fields =>
      if (origin == .dotted) == path.isEmpty then none else addNew key value fields)
    path origin fields

/-- Opens the table of a header. One that is implied goes on where it was left, but stands behind
all entries now. -/
def openTable (key : String) (fields : Fields) : Option Fields :=
  match fields.find? fun f => f.1 == key with
  | none => some (fields ++ [(key, table .header [])])
  | some (_, table .implied inner) =>
    some (fields.filter (fun f => f.1 != key) ++ [(key, table .header inner)])
  | some _ => none

/-- Appends the table of a repeated header. -/
def appendTable (key : String) (fields : Fields) : Option Fields :=
  alter key
    (fun d? => match d? with
      | none => some (tables [[]])
      | some (tables items) => some (tables ([] :: items))
      | some _ => none)
    fields

/-- Applies a change at the table under a path of headers. -/
def atHeader (change : Fields → Option Fields) (path : List String) (fields : Fields) :
    Option Fields :=
  atPath false (fun _ => change) path .header fields

mutual

/-- The finished value of a draft. -/
def value? : Draft → Option Value
  | scalar s => some (.scalar s)
  | array items => (values? items).map .array
  | table _ fields => tableValue? fields
  | tables items => (tableValues? items).map fun values => .array values.reverse

/-- The finished values of drafts. -/
def values? : List Draft → Option (List Value)
  | [] => some []
  | d :: ds => do
    let v ← d.value?
    let vs ← values? ds
    return v :: vs

/-- The finished value of a table. One that starts with the key of dates and times is a date or a
time. -/
def tableValue? : List (String × Draft) → Option Value
  | [] => some (.table [])
  | (key, d) :: rest =>
    if key = datetimeKey then
      match d with
      | scalar (.text s) => (readDatetime s.toList).map fun cs => .scalar (.datetime cs)
      | _ => none
    else do
      let v ← d.value?
      let fields ← fields? rest
      return .table ((key, v) :: fields)

/-- The finished entries of a table. -/
def fields? : List (String × Draft) → Option (List (String × Value))
  | [] => some []
  | (key, d) :: rest => do
    let v ← d.value?
    let fields ← fields? rest
    return (key, v) :: fields

/-- The finished values of tables. -/
def tableValues? : List (List (String × Draft)) → Option (List Value)
  | [] => some []
  | fields :: rest => do
    let v ← tableValue? fields
    let vs ← tableValues? rest
    return v :: vs

end

end Draft

end ConfTree.Toml
