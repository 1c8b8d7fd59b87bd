import ConfTree.Json.Value
import ConfTree.Text.Hex

/-!
# Reading object documents

A reader for the common grammar of objects, arrays, texts, numbers and the three words. Containers
nest at most 127 deep. A key that is given again keeps its place and takes the later value.
-/

namespace ConfTree.Json

/-- The characters between tokens. -/
def isSpace (c : Char) : Bool := c == ' ' || c == '\n' || c == '\t' || c == '\r'

/-- Skips the characters between tokens. -/
def skipSpace (cs : List Char) : List Char := cs.dropWhile isSpace

/-- The value of four hexadecimal digits. -/
def hex4? (a b c d : Char) : Option Nat := Text.readDigits? Text.hexValue? 16 [a, b, c, d]

/-- The character that a backslash and `c` stand for. -/
def simpleEscape? (c : Char) : Option Char :=
  match c with
  | '"' => some '"'
  | '\\' => some '\\'
  | '/' => some '/'
  | 'b' => some (Char.ofNat 8)
  | 'f' => some (Char.ofNat 12)
  | 'n' => some '\n'
  | 'r' => some '\r'
  | 't' => some '\t'
  | _ => none

/-- The code point of two surrogates. -/
def joinSurrogates (high low : Nat) : Nat := 0x10000 + (high - 0xD800) * 0x400 + (low - 0xDC00)

/-- Takes a text, whose opening quote is already taken, up to its closing quote. -/
def takeText : List Char → Option (List Char × List Char)
  | [] => none
  | '"' :: cs => some ([], cs)
  | '\\' :: 'u' :: a :: b :: c :: d :: cs =>
    match hex4? a b c d with
    | none => none
    | some n =>
      if 0xD800 ≤ n && n < 0xDC00 then
        match cs with
        | '\\' :: 'u' :: e :: f :: g :: h :: cs =>
          match hex4? e f g h with
          | none => none
          | some low =>
            if 0xDC00 ≤ low && low < 0xE000 then
              (takeText cs).map fun (text, rest) =>
                (Char.ofNat (joinSurrogates n low) :: text, rest)
            else none
        | _ => none
      else if 0xDC00 ≤ n && n < 0xE000 then none
      else (takeText cs).map fun (text, rest) => (Char.ofNat n :: text, rest)
  | '\\' :: c :: cs =>
    match simpleEscape? c with
    | none => none
    | some c => (takeText cs).map fun (text, rest) => (c :: text, rest)
  | c :: cs =>
    if c.toNat < 0x20 || c = '\\' then none
    else (takeText cs).map fun (text, rest) => (c :: text, rest)

/-- Sets a field, in its place if the key is there already. -/
def setField (fields : List (String × Value)) (key : String) (value : Value) :
    List (String × Value) :=
  match fields with
  | [] => [(key, value)]
  | (k, v) :: rest =>
    if k = key then (k, value) :: rest else (k, v) :: setField rest key value

mutual

/-- Takes a value in front of which no space is left. Containers may nest `depth` deep; `fuel`
bounds the recursion. -/
def takeValue (depth : Nat) : Nat → List Char → Option (Value × List Char)
  | 0, _ => none
  | fuel + 1, cs =>
    match cs with
    | 'n' :: 'u' :: 'l' :: 'l' :: rest => some (.scalar .null, rest)
    | 't' :: 'r' :: 'u' :: 'e' :: rest => some (.scalar (.bool true), rest)
    | 'f' :: 'a' :: 'l' :: 's' :: 'e' :: rest => some (.scalar (.bool false), rest)
    | '"' :: rest => (takeText rest).map fun (s, rest) => (.scalar (.text (String.ofList s)), rest)
    | '[' :: rest =>
      match depth with
      | 0 => none
      | depth + 1 =>
        match skipSpace rest with
        | ']' :: rest => some (.array [], rest)
        | rest => (takeItems depth fuel rest).map fun (items, rest) => (.array items, rest)
    | '{' :: rest =>
      match depth with
      | 0 => none
      | depth + 1 =>
        match skipSpace rest with
        | '}' :: rest => some (.table [], rest)
        | rest => (takeFields depth fuel [] rest).map fun (fields, rest) => (.table fields, rest)
    | cs => (takeNumber cs).map fun (n, rest) => (.scalar (.number n), rest)

/-- Takes items, at least one, up to the bracket that closes them. -/
def takeItems (depth : Nat) : Nat → List Char → Option (List Value × List Char)
  | 0, _ => none
  | fuel + 1, cs =>
    match takeValue depth fuel cs with
    | none => none
    | some (item, rest) =>
      match skipSpace rest with
      | ']' :: rest => some ([item], rest)
      | ',' :: rest =>
        (takeItems depth fuel (skipSpace rest)).map fun (items, rest) => (item :: items, rest)
      | _ => none

/-- Takes fields, at least one, up to the brace that closes them, and adds them to those before. -/
def takeFields (depth : Nat) :
    Nat → List (String × Value) → List Char → Option (List (String × Value) × List Char)
  | 0, _, _ => none
  | fuel + 1, before, cs =>
    match cs with
    | '"' :: rest =>
      match takeText rest with
      | none => none
      | some (key, rest) =>
        match skipSpace rest with
        | ':' :: rest =>
          match takeValue depth fuel (skipSpace rest) with
          | none => none
          | some (value, rest) =>
            let fields := setField before (String.ofList key) value
            match skipSpace rest with
            | '}' :: rest => some (fields, rest)
            | ',' :: rest => takeFields depth fuel fields (skipSpace rest)
            | _ => none
        | _ => none
    | _ => none

end

/-- Reads a text that is one value. -/
def Value.read (cs : List Char) : Option Value :=
  match takeValue 127 (2 * cs.length + 2) (skipSpace cs) with
  | some (value, rest) => if (skipSpace rest).isEmpty then some value else none
  | none => none

end ConfTree.Json
