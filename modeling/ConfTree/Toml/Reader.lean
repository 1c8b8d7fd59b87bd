import ConfTree.Toml.Draft
import ConfTree.Toml.Number

/-!
# Reading table documents

A document is a list of lines: entries, and headers that say which table the entries after them
belong to. The lines are read first and then put together, line after line.
-/

namespace ConfTree.Toml

/-- The greatest number of parts of a key, and the greatest number of values that are nested. -/
def maxNesting : Nat := 79

/-- Takes the rest of a comment, with the line end behind it. -/
def takeComment (cs : List Char) : Option (List Char) :=
  let rest := cs.dropWhile isPlainChar
  if rest.isEmpty then some [] else takeLineEnd rest

/-- Takes what may stand behind an entry or a header: blanks, a comment, and a line end. -/
def takeTail (cs : List Char) : Option (List Char) :=
  match skipInline cs with
  | [] => some []
  | '#' :: rest => takeComment rest
  | rest => takeLineEnd rest

/-- Skips blanks, comments and line ends. -/
def skipTrivia : Nat → List Char → Option (List Char)
  | 0, cs => some cs
  | fuel + 1, cs =>
    match skipInline cs with
    | '#' :: rest => (takeComment rest).bind (skipTrivia fuel)
    | rest =>
      match takeLineEnd rest with
      | some rest => skipTrivia fuel rest
      | none => some rest

/-- Takes a part of a key. -/
def takeKeyPart (cs : List Char) : Option (List Char × List Char) :=
  match cs with
  | '"' :: rest => takeBasic (rest.length + 1) rest
  | '\'' :: rest => takeLiteral rest
  | cs =>
    let part := cs.takeWhile isKeyChar
    if part.isEmpty then none else some (part, cs.dropWhile isKeyChar)

/-- Takes a key of at most so many parts: those before the last, and the last. -/
def takeKey : Nat → List Char → Option (List String × String × List Char)
  | 0, _ => none
  | parts + 1, cs => do
    let (part, rest) ← takeKeyPart (skipInline cs)
    match skipInline rest with
    | '.' :: rest =>
      let (path, key, rest) ← takeKey parts rest
      return (String.ofList part :: path, key, rest)
    | rest => return ([], String.ofList part, rest)

/-- Takes a scalar. -/
def takeScalar (cs : List Char) : Option (Scalar × List Char) :=
  match cs with
  | 't' :: 'r' :: 'u' :: 'e' :: rest => some (.bool true, rest)
  | 'f' :: 'a' :: 'l' :: 's' :: 'e' :: rest => some (.bool false, rest)
  | '"' :: _ | '\'' :: _ =>
    (takeText cs).map fun (text, rest) => (.text (String.ofList text), rest)
  | cs =>
    match takeDatetime cs with
    | some (chars, rest) => some (.datetime chars, rest)
    | none => takeNumeral cs

mutual

/-- Takes a value in front of which no blank is left. Values may nest `depth` deep; `fuel` bounds
the recursion. -/
def takeValue (depth : Nat) : Nat → List Char → Option (Draft × List Char)
  | 0, _ => none
  | fuel + 1, cs =>
    match cs with
    | '[' :: rest =>
      match depth, skipTrivia rest.length rest with
      | depth + 1, some rest =>
        match rest with
        | ']' :: rest => some (.array [], rest)
        | rest => (takeItems depth fuel rest).map fun (items, rest) => (.array items, rest)
      | _, _ => none
    | '{' :: rest =>
      match depth, skipInline rest with
      | 0, _ => none
      | _ + 1, '}' :: rest => some (.table .inline [], rest)
      | depth + 1, rest =>
        (takeEntries depth fuel [] rest).map fun (fields, rest) => (.table .inline fields, rest)
    | cs => (takeScalar cs).map fun (s, rest) => (.scalar s, rest)

/-- Takes items, at least one, up to the bracket that closes them. -/
def takeItems (depth : Nat) : Nat → List Char → Option (List Draft × List Char)
  | 0, _ => none
  | fuel + 1, cs => do
    let (item, rest) ← takeValue depth fuel cs
    match ← skipTrivia rest.length rest with
    | ']' :: rest => return ([item], rest)
    | ',' :: rest =>
      match ← skipTrivia rest.length rest with
      | ']' :: rest => return ([item], rest)
      | rest =>
        let (items, rest) ← takeItems depth fuel rest
        return (item :: items, rest)
    | _ => none

/-- Takes entries, at least one, up to the brace that closes them, and adds them to those before. -/
def takeEntries (depth : Nat) : Nat → Draft.Fields → List Char → Option (Draft.Fields × List Char)
  | 0, _, _ => none
  | fuel + 1, before, cs => do
    let (path, key, rest) ← takeKey maxNesting cs
    match rest with
    | '=' :: rest =>
      let (value, rest) ← takeValue depth fuel (skipInline rest)
      let fields ← Draft.addEntry path key value .inline before
      match skipInline rest with
      | '}' :: rest => return (fields, rest)
      | ',' :: rest => takeEntries depth fuel fields rest
      | _ => none
    | _ => none

end

/-- A line of a document. -/
inductive Line where
  | entry (path : List String) (key : String) (value : Draft)
  | header (path : List String) (key : String)
  | repeatedHeader (path : List String) (key : String)

/-- Takes a line up to its last sign. -/
def takeLine (cs : List Char) : Option (Line × List Char) :=
  match cs with
  | '[' :: '[' :: rest => do
    let (path, key, rest) ← takeKey maxNesting rest
    match rest with
    | ']' :: ']' :: rest => return (.repeatedHeader path key, rest)
    | _ => none
  | '[' :: rest => do
    let (path, key, rest) ← takeKey maxNesting rest
    match rest with
    | ']' :: rest => return (.header path key, rest)
    | _ => none
  | cs => do
    let (path, key, rest) ← takeKey maxNesting cs
    match rest with
    | '=' :: rest =>
      let (value, rest) ← takeValue maxNesting (2 * rest.length + 2) (skipInline rest)
      return (.entry path key value, rest)
    | _ => none

/-- Reads the lines of a document. -/
def readLines : Nat → List Char → Option (List Line)
  | 0, _ => none
  | fuel + 1, cs =>
    match skipTrivia cs.length cs with
    | none => none
    | some [] => some []
    | some cs => do
      let (line, rest) ← takeLine cs
      let rest ← takeTail rest
      let lines ← readLines fuel rest
      return line :: lines

/-- The part of a document that is put together. -/
structure Assembly where
  root : Draft.Fields
  /-- The path of the last header. -/
  current : List String

/-- Adds a line. -/
def Assembly.add (a : Assembly) : Line → Option Assembly
  | .entry path key value =>
    (Draft.atPath false (Draft.addEntry path key value) a.current .header a.root).map
      (⟨·, a.current⟩)
  | .header path key =>
    (Draft.atHeader (Draft.openTable key) path a.root).map (⟨·, path ++ [key]⟩)
  | .repeatedHeader path key =>
    (Draft.atHeader (Draft.appendTable key) path a.root).map (⟨·, path ++ [key]⟩)

/-- Adds lines one after the other. -/
def Assembly.addAll (a : Assembly) : List Line → Option Assembly
  | [] => some a
  | line :: lines => (a.add line).bind fun a => a.addAll lines

/-- The text without a byte order mark at its front. -/
def withoutMark : List Char → List Char
  | c :: cs => if c.toNat = 0xFEFF then cs else c :: cs
  | [] => []

/-- Reads a document. -/
def readTable (cs : List Char) : Option (List (String × Value)) := do
  let cs := withoutMark cs
  let lines ← readLines (cs.length + 1) cs
  let a ← Assembly.addAll ⟨[], []⟩ lines
  Draft.fields? a.root

end ConfTree.Toml
