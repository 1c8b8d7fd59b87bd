import ConfTree.Text.Hex

/-!
# Texts of table documents

A text stands in double quotes, with escapes, or in single quotes, without. Either kind may be
tripled, which lets the text run over lines. A text is written in the first kind of quotes that
needs no escapes for it.
-/

namespace ConfTree.Toml

/-- A character that stands for itself in any text: a tab or anything that is no control. -/
def isPlainChar (c : Char) : Bool := c == '\t' || (0x20 ≤ c.toNat && c.toNat != 0x7F)

/-- A blank within a line. -/
def isInlineBlank (c : Char) : Bool := c == ' ' || c == '\t'

/-- Skips blanks within a line. -/
def skipInline (cs : List Char) : List Char := cs.dropWhile isInlineBlank

/-- Takes a line end. -/
def takeLineEnd : List Char → Option (List Char)
  | '\n' :: cs => some cs
  | '\r' :: '\n' :: cs => some cs
  | _ => none

/-- The character that a backslash and `c` stand for. -/
def simpleEscape? (c : Char) : Option Char :=
  match c with
  | 'b' => some (Char.ofNat 8)
  | 't' => some '\t'
  | 'n' => some '\n'
  | 'f' => some (Char.ofNat 12)
  | 'r' => some '\r'
  | '"' => some '"'
  | '\\' => some '\\'
  | _ => none

/-- The character of a code point in hexadecimal digits. -/
def hexChar? (digits : List Char) : Option Char :=
  (Text.readDigits? Text.hexValue? 16 digits).bind Text.codePoint?

/-- Takes an escape whose backslash is already taken. -/
def takeEscape (cs : List Char) : Option (Char × List Char) :=
  match cs with
  | 'u' :: a :: b :: c :: d :: rest => (hexChar? [a, b, c, d]).map (·, rest)
  | 'U' :: a :: b :: c :: d :: e :: f :: g :: h :: rest =>
    (hexChar? [a, b, c, d, e, f, g, h]).map (·, rest)
  | c :: rest => (simpleEscape? c).map (·, rest)
  | [] => none

/-- Takes a text in double quotes whose opening quote is already taken. -/
def takeBasic : Nat → List Char → Option (List Char × List Char)
  | 0, _ => none
  | fuel + 1, cs =>
    match cs with
    | [] => none
    | '"' :: rest => some ([], rest)
    | '\\' :: rest =>
      match takeEscape rest with
      | none => none
      | some (c, rest) => (takeBasic fuel rest).map fun (t, rest) => (c :: t, rest)
    | c :: rest =>
      if isPlainChar c then (takeBasic fuel rest).map fun (t, rest) => (c :: t, rest) else none

/-- Takes a text in single quotes whose opening quote is already taken. -/
def takeLiteral : List Char → Option (List Char × List Char)
  | [] => none
  | '\'' :: rest => some ([], rest)
  | c :: rest =>
    if isPlainChar c then (takeLiteral rest).map fun (t, rest) => (c :: t, rest) else none

/-- The number of quotes at the front of a text, five at most. -/
def countQuotes (quote : Char) (cs : List Char) : Nat :=
  ((cs.take 5).takeWhile (· == quote)).length

/-- Skips blanks and line ends. -/
def skipLines : Nat → List Char → List Char
  | 0, cs => cs
  | fuel + 1, cs =>
    match takeLineEnd cs with
    | some rest => skipLines fuel rest
    | none =>
      match cs with
      | c :: rest => if isInlineBlank c then skipLines fuel rest else cs
      | [] => []

/-- Takes a tripled text after its opening quotes. A run of three to five quotes ends it, and what
of the run is not needed for that belongs to the text. -/
def takeTripled (quote : Char) : Nat → List Char → Option (List Char × List Char)
  | 0, _ => none
  | fuel + 1, cs =>
    let quotes := countQuotes quote cs
    if 3 ≤ quotes then some (List.replicate (quotes - 3) quote, cs.drop quotes)
    else
      match takeLineEnd cs with
      | some rest => (takeTripled quote fuel rest).map fun (t, rest) => ('\n' :: t, rest)
      | none =>
        match cs with
        | [] => none
        | c :: rest =>
          if c = '\\' && quote = '"' then
            match takeLineEnd (skipInline rest) with
            | some next => takeTripled quote fuel (skipLines next.length next)
            | none =>
              match takeEscape rest with
              | none => none
              | some (c, rest) => (takeTripled quote fuel rest).map fun (t, rest) => (c :: t, rest)
          else if isPlainChar c then
            (takeTripled quote fuel rest).map fun (t, rest) => (c :: t, rest)
          else none

/-- Takes a text of any kind. -/
def takeText (cs : List Char) : Option (List Char × List Char) :=
  let tripled (quote : Char) (rest : List Char) :=
    let body := (takeLineEnd rest).getD rest
    takeTripled quote (body.length + 1) body
  match cs with
  | '"' :: '"' :: '"' :: rest => tripled '"' rest
  | '\'' :: '\'' :: '\'' :: rest => tripled '\'' rest
  | '"' :: rest => takeBasic (rest.length + 1) rest
  | '\'' :: rest => takeLiteral rest
  | _ => none

/-- A character in double quotes, other than a double quote. -/
def escapeChar (multiline : Bool) (c : Char) : List Char :=
  if c.toNat = 8 then ['\\', 'b']
  else if c = '\t' then ['\\', 't']
  else if c = '\n' then if multiline then ['\n'] else ['\\', 'n']
  else if c.toNat = 12 then ['\\', 'f']
  else if c = '\r' then ['\\', 'r']
  else if c = '\\' then ['\\', '\\']
  else if c.toNat < 0x20 || c.toNat = 0x7F then
    ['\\', 'u', '0', '0'] ++
      [Nat.digitChar (c.toNat / 16), Nat.digitChar (c.toNat % 16)].map Char.toUpper
  else [c]

/-- A text in double quotes, of which the last `run` characters were double quotes. Two in a row
need no escape where the text is tripled. -/
def escapeFrom (multiline : Bool) (run : Nat) : List Char → List Char
  | [] => []
  | c :: cs =>
    if c = '"' then
      if multiline && run < 2 then '"' :: escapeFrom multiline (run + 1) cs
      else '\\' :: '"' :: escapeFrom multiline 0 cs
    else escapeChar multiline c ++ escapeFrom multiline 0 cs

/-- The length of the longest run of a character, where the run at the front goes on one of the
given length. -/
def longestRun (d : Char) (run : Nat) : List Char → Nat
  | [] => run
  | c :: cs => if c = d then longestRun d (run + 1) cs else max run (longestRun d 0 cs)

/-- A text between quotes of its own kind. -/
def between (quotes body : List Char) : List Char := quotes ++ body ++ quotes

/-- A text between tripled quotes. One of several lines starts on a line of its own. -/
def betweenTripled (quote : Char) (multiline : Bool) (body : List Char) : List Char :=
  between [quote, quote, quote] (if multiline then '\n' :: body else body)

/-- A text as a value. The first kind of quotes in which the text needs no escape is taken. -/
def textChars (cs : List Char) : List Char :=
  let multiline := cs.contains '\n'
  let controls := cs.any fun c => c != '\n' && !isPlainChar c
  let backslash := cs.contains '\\'
  let basic := between ['"'] (escapeFrom false 0 cs)
  let basicTripled := betweenTripled '"' multiline (escapeFrom true 0 cs)
  if controls then if multiline then basicTripled else basic
  else if !backslash && !cs.contains '"' && !multiline then basic
  else if !cs.contains '\'' && !multiline then between ['\''] cs
  else if !backslash && longestRun '"' 0 cs ≤ 2 then basicTripled
  else if longestRun '\'' 0 cs ≤ 2 then betweenTripled '\'' multiline cs
  else if multiline then basicTripled
  else basic

/-- A character of a key without quotes. -/
def isKeyChar (c : Char) : Bool := c.isAlphanum || c == '-' || c == '_'

/-- A text as a key. -/
def keyChars (cs : List Char) : List Char :=
  if !cs.isEmpty && cs.all isKeyChar then cs
  else if cs.any (fun c => c == '"' || c == '\\') && cs.all (fun c => isPlainChar c && c != '\'')
  then between ['\''] cs
  else between ['"'] (escapeFrom false 0 cs)

end ConfTree.Toml
