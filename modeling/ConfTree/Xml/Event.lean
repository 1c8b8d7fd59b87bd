/-!
# Events of markup

A markup text is cut into tags, texts and sections of character data. Comments, declarations,
instructions and document types carry nothing for a configuration. A closing tag has to name the
element that it closes; no other rule on names holds here.
-/

namespace ConfTree.Xml

/-- An event. Tags and texts are kept as they are written. -/
inductive Event where
  | opening (content : List Char)
  | single (content : List Char)
  | closing
  | text (raw : List Char)
  | cdata (content : List Char)
  | ignored
  deriving DecidableEq, Repr

/-- The characters that separate names in tags. -/
def isSpace (c : Char) : Bool := c == ' ' || c == '\t' || c == '\r' || c == '\n'

/-- The name at the front of a tag. -/
def tagName (content : List Char) : List Char := content.takeWhile fun c => !isSpace c

/-- The list without the spaces at its end. -/
def trimSpaceBack (cs : List Char) : List Char := (cs.reverse.dropWhile isSpace).reverse

/-- Takes a tag up to the `>` that stands outside of quotes. -/
def takeTag (quote : Option Char) : List Char → Option (List Char × List Char)
  | [] => none
  | c :: cs =>
    match quote with
    | none =>
      if c = '>' then some ([], cs)
      else
        (takeTag (if c = '\'' || c = '"' then some c else none) cs).map fun (t, rest) =>
          (c :: t, rest)
    | some q => (takeTag (if c = q then none else some q) cs).map fun (t, rest) => (c :: t, rest)

/-- Takes a text up to a `>` that two marks and, in all, at least `least` characters precede. The
text so far is `before`, last character first. -/
def takeMarked (mark : Char) (least : Nat) (before : List Char) :
    List Char → Option (List Char × List Char)
  | [] => none
  | c :: cs =>
    if c = '>' && least ≤ before.length && before.take 2 = [mark, mark] then
      some (before.reverse, cs)
    else takeMarked mark least (c :: before) cs

/-- Takes a document type up to a `>` before which angle brackets are balanced. -/
def takeBalanced (open_ : Nat) : List Char → Option (List Char × List Char)
  | [] => none
  | c :: cs =>
    if c = '>' && open_ = 0 then some ([], cs)
    else
      let next := if c = '<' then open_ + 1 else if c = '>' then open_ - 1 else open_
      (takeBalanced next cs).map fun (t, rest) => (c :: t, rest)

/-- Takes an instruction up to a `>` after a question mark. The last character before is `last`. -/
def takeInstruction (last : Char) : List Char → Option (List Char × List Char)
  | [] => none
  | c :: cs =>
    if c = '>' && last = '?' then some ([], cs)
    else (takeInstruction c cs).map fun (t, rest) => (c :: t, rest)

/-- The text starts with the given capitals, in any ASCII case. -/
def startsFolded (lead : List Char) (cs : List Char) : Bool :=
  (cs.take lead.length).map Char.toUpper == lead

/-- Takes what starts with `<!`. -/
def takeBang (cs : List Char) : Option (Event × List Char) :=
  match cs with
  | '-' :: _ =>
    match takeMarked '-' 4 [] cs with
    | some ('-' :: '-' :: _, rest) => some (.ignored, rest)
    | _ => none
  | '[' :: _ =>
    match takeMarked ']' 0 [] cs with
    | some (content, rest) =>
      if "[CDATA[".toList.isPrefixOf content then
        some (.cdata ((content.drop 7).dropLast.dropLast), rest)
      else none
    | none => none
  | c :: _ =>
    if c = 'D' || c = 'd' then
      match takeBalanced 0 cs with
      | some (content, rest) =>
        if startsFolded "DOCTYPE".toList content && !(content.drop 7).all isSpace then
          some (.ignored, rest)
        else none
      | none => none
    else none
  | [] => none

/-- Takes markup whose `<` is already taken. The names of the open elements are kept, the innermost
first. -/
def takeMarkup (opened : List (List Char)) (cs : List Char) :
    Option (Event × List (List Char) × List Char) :=
  match cs with
  | [] => none
  | '!' :: cs => (takeBang cs).map fun (event, rest) => (event, opened, rest)
  | '?' :: cs =>
    match takeInstruction '?' cs with
    | some (_ :: _, rest) => some (.ignored, opened, rest)
    | _ => none
  | '/' :: cs =>
    match takeTag none cs, opened with
    | some (content, rest), name :: outer =>
      let trimmed := trimSpaceBack content
      if (if trimmed.isEmpty then content else trimmed) = name then some (.closing, outer, rest)
      else none
    | _, _ => none
  | cs =>
    match takeTag none cs with
    | none => none
    | some (content, rest) =>
      if content.getLast? = some '/' then some (.single content.dropLast, opened, rest)
      else some (.opening content, tagName content :: opened, rest)

/-- The events of a text up to its end, or up to the first fault, which the flag tells. At most
`fuel` are taken; each takes a character. -/
def eventsWithin (opened : List (List Char)) : Nat → List Char → List Event × Bool
  | 0, _ => ([], false)
  | fuel + 1, cs =>
    match cs with
    | [] => ([], false)
    | '<' :: rest =>
      match takeMarkup opened rest with
      | none => ([], true)
      | some (event, opened, rest) =>
        let (events, fault) := eventsWithin opened fuel rest
        (event :: events, fault)
    | cs =>
      let (events, fault) := eventsWithin opened fuel (cs.dropWhile (· != '<'))
      (.text (cs.takeWhile (· != '<')) :: events, fault)

/-- The events of a text. A byte order mark in front is left out. -/
def events (cs : List Char) : List Event × Bool :=
  let cs := if cs.head? = some (Char.ofNat 0xFEFF) then cs.drop 1 else cs
  eventsWithin [] (cs.length + 1) cs

end ConfTree.Xml
