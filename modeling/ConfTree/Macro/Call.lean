import ConfTree.Error
import ConfTree.Instant
import ConfTree.Text.Blank
import ConfTree.Text.Folding
import ConfTree.Text.Quotes

/-!
# Macro calls

A call is a name and arguments, set apart by blanks. An argument is a key and a value with `=`
between them, or a key alone. Values may stand in quotes of either kind, which keep their blanks.
-/

namespace ConfTree.Macro

/-- A call: a name and arguments in order. -/
structure Call where
  name : String
  arguments : List (String × String)
  deriving DecidableEq, Repr

/-- Cuts a text at blanks outside of quotes. The word so far is `current`, last character first. -/
def wordsFrom (quote : Option Char) (current : List Char) : List Char → List (List Char)
  | [] => if current.isEmpty then [] else [current.reverse]
  | c :: cs =>
    match quote with
    | some q => wordsFrom (if c = q then none else some q) (c :: current) cs
    | none =>
      if c = '\'' || c = '"' then wordsFrom (some c) (c :: current) cs
      else if Text.isBlank c then
        if current.isEmpty then wordsFrom none [] cs else current.reverse :: wordsFrom none [] cs
      else wordsFrom none (c :: current) cs

/-- The words of a call. -/
def words (cs : List Char) : List (List Char) := wordsFrom none [] cs

/-- The argument that a word spells. -/
def argumentOf (word : List Char) : String × String :=
  match word.dropWhile (· != '=') with
  | [] => (String.ofList word, "")
  | _ :: value =>
    (String.ofList (Text.trimChars (word.takeWhile (· != '='))),
      String.ofList (Text.unquote (Text.trimChars value)))

/-- Reads a call. A blank text calls nothing. -/
def Call.parse (text : String) : Except ConfigError Call :=
  match words text.toList with
  | [] => .error (.unknownMacro (Text.trim text))
  | name :: arguments => .ok ⟨String.ofList name, arguments.map argumentOf⟩

/-- The value of the first argument with the given key, in any ASCII case. -/
def Call.get? (call : Call) (key : String) : Option String :=
  (call.arguments.find? fun a => Text.sameName a.1 key).map (·.2)

/-- Answers calls at an instant. The last argument is the value that the call is applied to, if
there is one. -/
abbrev Provider := Instant → Call → Option String → Except ConfigError String

end ConfTree.Macro
