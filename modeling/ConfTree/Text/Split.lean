/-!
# Splitting texts

A text is split at the places where a separator stands, from the left and without overlaps.
-/

namespace ConfTree.Text

/-- Puts a character in front of the first part. -/
def consFirst (c : Char) : List (List Char) → List (List Char)
  | [] => [[c]]
  | part :: parts => (c :: part) :: parts

/-- The parts of a text whose first `skip` characters belong to a separator. -/
def splitSkipping (separator : List Char) (skip : Nat) : List Char → List (List Char)
  | [] => [[]]
  | c :: cs =>
    match skip with
    | skip + 1 => splitSkipping separator skip cs
    | 0 =>
      if separator.isPrefixOf (c :: cs) then
        [] :: splitSkipping separator (separator.length - 1) cs
      else consFirst c (splitSkipping separator 0 cs)

/-- The parts of a text between the places where a separator stands. The separator is not empty. -/
def splitAt (separator : List Char) (cs : List Char) : List (List Char) :=
  splitSkipping separator 0 cs

/-- The rest of a text behind its given beginning. -/
def afterBeginning? : List Char → List Char → Option (List Char)
  | [], cs => some cs
  | _ :: _, [] => none
  | b :: bs, c :: cs => if b = c then afterBeginning? bs cs else none

end ConfTree.Text
