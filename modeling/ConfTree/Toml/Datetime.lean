import ConfTree.Text.Hex

/-!
# Dates and times

A date, a time, or both with an optional offset. They are checked against the calendar and kept as
texts of one form: a capital `T`, no zeros at the end of a fraction, and a capital `Z` for no
offset.
-/

namespace ConfTree.Toml

/-- The key under which a date or a time is passed on as a table. -/
def datetimeKey : String := "$__toml_private_datetime"

/-- Takes a number of exactly `n` digits. -/
def takeNumber (n : Nat) (cs : List Char) : Option (Nat × List Char) := do
  let digits := cs.take n
  if digits.length < n then none
  let value ← Text.readDigits? Text.decimalValue? 10 digits
  return (value, cs.drop n)

/-- Takes a number of two digits that is in the given range. -/
def takeTwoDigits (least greatest : Nat) (cs : List Char) : Option (Nat × List Char) := do
  let (value, rest) ← takeNumber 2 cs
  if least ≤ value && value ≤ greatest then return (value, rest) else none

/-- Takes one character. -/
def takeChar (c : Char) : List Char → Option (List Char)
  | d :: cs => if c = d then some cs else none
  | [] => none

/-- A number with zeros in front, filled up to its width. -/
def padded (width n : Nat) : List Char :=
  let digits := Nat.toDigits 10 n
  List.replicate (width - digits.length) '0' ++ digits

/-- The year is a leap year. -/
def isLeapYear (year : Nat) : Bool := year % 4 == 0 && (year % 100 != 0 || year % 400 == 0)

/-- The number of days of a month. -/
def daysOf (year month : Nat) : Nat :=
  if month = 2 then if isLeapYear year then 29 else 28
  else if month = 4 || month = 6 || month = 9 || month = 11 then 30
  else 31

/-- Takes a date. -/
def takeDate (cs : List Char) : Option (List Char × List Char) := do
  let (year, cs) ← takeNumber 4 cs
  let cs ← takeChar '-' cs
  let (month, cs) ← takeTwoDigits 1 12 cs
  let cs ← takeChar '-' cs
  let (day, cs) ← takeTwoDigits 1 (daysOf year month) cs
  return (padded 4 year ++ '-' :: padded 2 month ++ '-' :: padded 2 day, cs)

/-- Takes a fraction of a second. Digits after the ninth are dropped. -/
def takeFraction (cs : List Char) : Option (List Char × List Char) :=
  match cs with
  | '.' :: rest =>
    let digits := rest.takeWhile Char.isDigit
    if digits.isEmpty then none
    else
      let kept := ((digits.take 9).reverse.dropWhile (· == '0')).reverse
      some (if kept.isEmpty then [] else '.' :: kept, rest.dropWhile Char.isDigit)
  | _ => none

/-- Takes a time. -/
def takeTime (cs : List Char) : Option (List Char × List Char) := do
  let (hour, cs) ← takeTwoDigits 0 23 cs
  let cs ← takeChar ':' cs
  let (minute, cs) ← takeTwoDigits 0 59 cs
  let cs ← takeChar ':' cs
  let (second, cs) ← takeTwoDigits 0 60 cs
  let (fraction, cs) := (takeFraction cs).getD ([], cs)
  return (padded 2 hour ++ ':' :: padded 2 minute ++ ':' :: padded 2 second ++ fraction, cs)

/-- Takes an offset. One of no minutes has a plus sign. -/
def takeOffset (cs : List Char) : Option (List Char × List Char) :=
  match cs with
  | [] => none
  | c :: cs =>
    if c = 'Z' || c = 'z' then some (['Z'], cs)
    else if c = '+' || c = '-' then do
      let (hour, cs) ← takeTwoDigits 0 23 cs
      let cs ← takeChar ':' cs
      let (minute, cs) ← takeTwoDigits 0 59 cs
      let sign := if hour = 0 && minute = 0 then '+' else c
      return (sign :: padded 2 hour ++ ':' :: padded 2 minute, cs)
    else none

/-- The mark that sets a time apart from a date. -/
def isTimeMark (c : Char) : Bool := c == 'T' || c == 't' || c == ' '

/-- Takes a date, a time, or both. What follows a date and is no time is left. -/
def takeDatetime (cs : List Char) : Option (List Char × List Char) :=
  match takeDate cs with
  | none => takeTime cs
  | some (date, rest) =>
    let time := match rest with
      | c :: cs => if isTimeMark c then takeTime cs else none
      | [] => none
    match time with
    | none => some (date, rest)
    | some (time, rest) =>
      let (offset, rest) := (takeOffset rest).getD ([], rest)
      some (date ++ 'T' :: time ++ offset, rest)

/-- Reads a text that is a date, a time, or both, from its first character to its last. -/
def readDatetime (cs : List Char) : Option (List Char) :=
  match takeDatetime cs with
  | some (datetime, []) => some datetime
  | _ => none

end ConfTree.Toml
