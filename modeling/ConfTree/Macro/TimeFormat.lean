import ConfTree.Instant

/-!
# Time formats

A time format is a text with directives, each a percent sign, an optional padding mark and a letter.
They are filled in for a moment.
-/

namespace ConfTree.Macro

/-- How a number is filled up to its width. -/
inductive Padding where
  | none
  | zero
  | space
  deriving DecidableEq, Repr

/-- The padding that a mark asks for. -/
def Padding.ofMark? : Char → Option Padding
  | '-' => some .none
  | '0' => some .zero
  | '_' => some .space
  | _ => Option.none

/-- A number with its width and padding. -/
structure NumberField where
  value : Int
  width : Nat
  padding : Padding
  /-- A number that is not negative has a sign as well, beside its width. -/
  signed : Bool
  deriving DecidableEq, Repr

/-- The characters of a number field. -/
def NumberField.chars (f : NumberField) : List Char :=
  let sign := if f.value < 0 then ['-'] else if f.signed then ['+'] else []
  let digits := Nat.toDigits 10 f.value.natAbs
  let missing := (if f.signed then f.width + 1 else f.width) - (sign.length + digits.length)
  match f.padding with
  | .none => sign ++ digits
  | .zero => sign ++ List.replicate missing '0' ++ digits
  | .space => List.replicate missing ' ' ++ sign ++ digits

/-- A number that is filled up with zeros. -/
def padded (value width : Nat) : NumberField := ⟨value, width, .zero, false⟩

/-- A year of four digits, or with a sign if it is none. -/
def yearField (year : Int) : NumberField := ⟨year, 4, .zero, year < 0 || 9999 < year⟩

/-- The hour on a clock of twelve hours. -/
def hourOfTwelve (hour : Nat) : Nat := if hour % 12 = 0 then 12 else hour % 12

/-- The number that a letter asks for. -/
def numberField? (m : Moment) : Char → Option NumberField
  | 'Y' => some (yearField m.year)
  | 'C' => some ⟨m.year / 100, 2, .zero, false⟩
  | 'y' => some ⟨m.year % 100, 2, .zero, false⟩
  | 'G' => some (yearField m.weekYear)
  | 'g' => some ⟨m.weekYear % 100, 2, .zero, false⟩
  | 'q' => some (padded ((m.monthAndDay.1 + 2) / 3) 1)
  | 'm' => some (padded m.monthAndDay.1 2)
  | 'd' => some (padded m.monthAndDay.2 2)
  | 'e' => some ⟨m.monthAndDay.2, 2, .space, false⟩
  | 'w' => some (padded ((m.weekday + 1) % 7) 1)
  | 'u' => some (padded (m.weekday + 1) 1)
  | 'U' => some (padded ((m.dayOfYear + 7 - (m.weekday + 1) % 7) / 7) 2)
  | 'W' => some (padded ((m.dayOfYear + 7 - m.weekday) / 7) 2)
  | 'V' => some (padded m.week 2)
  | 'j' => some (padded (m.dayOfYear + 1) 3)
  | 'H' => some (padded (m.seconds / 3600) 2)
  | 'k' => some ⟨(m.seconds / 3600 : Nat), 2, .space, false⟩
  | 'I' => some (padded (hourOfTwelve (m.seconds / 3600)) 2)
  | 'l' => some ⟨hourOfTwelve (m.seconds / 3600), 2, .space, false⟩
  | 'M' => some (padded (m.seconds / 60 % 60) 2)
  | 'S' => some (padded (m.seconds % 60) 2)
  | 'f' => some (padded m.nanoseconds 9)
  | 's' => some ⟨m.timestamp, 9, .none, false⟩
  | _ => none

/-- The names of the days of the week. -/
def weekdayNames : List String :=
  ["Monday", "Tuesday", "Wednesday", "Thursday", "Friday", "Saturday", "Sunday"]

/-- The names of the months. -/
def monthNames : List String :=
  ["January", "February", "March", "April", "May", "June", "July", "August", "September", "October",
    "November", "December"]

/-- The first three characters of a name. -/
def short (name : String) : String := String.ofList (name.toList.take 3)

/-- The name that a letter asks for. -/
def nameField? (m : Moment) : Char → Option String
  | 'A' => weekdayNames[m.weekday]?
  | 'a' => weekdayNames[m.weekday]?.map short
  | 'B' => monthNames[m.monthAndDay.1 - 1]?
  | 'b' => monthNames[m.monthAndDay.1 - 1]?.map short
  | 'h' => monthNames[m.monthAndDay.1 - 1]?.map short
  | 'P' => some (if m.seconds < 43200 then "am" else "pm")
  | 'p' => some (if m.seconds < 43200 then "AM" else "PM")
  | _ => none

/-- The number or the name that a letter asks for. -/
def simpleField? (m : Moment) (letter : Char) : Option (List Char) :=
  match numberField? m letter with
  | some f => some f.chars
  | none => (nameField? m letter).map String.toList

/-- A pattern with its letters filled in. -/
def spell (m : Moment) (pattern : String) : List Char :=
  pattern.toList.flatMap fun c => (simpleField? m c).getD [c]

/-- The part of a second, in so many digits. -/
def fraction (m : Moment) (digits : Nat) : List Char :=
  (padded (m.nanoseconds / Nat.pow 10 (9 - digits)) digits).chars

/-- The part of a second behind a dot, in as many digits as it takes in threes, if there is one. -/
def dottedFraction (m : Moment) : List Char :=
  if m.nanoseconds = 0 then []
  else if m.nanoseconds % 1000000 = 0 then '.' :: fraction m 3
  else if m.nanoseconds % 1000 = 0 then '.' :: fraction m 6
  else '.' :: fraction m 9

/-- How an offset is written. -/
inductive OffsetStyle where
  | hours
  | minutes (colon : Bool)
  | seconds
  deriving DecidableEq, Repr

/-- The characters of an offset. Seconds that are not written are rounded to minutes. -/
def offsetChars (offset : Int) (style : OffsetStyle) : List Char :=
  let sign := if offset < 0 then '-' else '+'
  let size := offset.natAbs
  let two (n : Nat) := (padded n 2).chars
  let rounded := (size + 30) / 60
  match style with
  | .hours => sign :: two (size / 3600)
  | .minutes false => sign :: (two (rounded / 60) ++ two (rounded % 60))
  | .minutes true => sign :: (two (rounded / 60) ++ ':' :: two (rounded % 60))
  | .seconds => sign :: (two (size / 3600) ++ ':' :: two (size / 60 % 60) ++ ':' :: two (size % 60))

/-- The name of the zone: `UTC`, or the offset of the local time. -/
def zoneName (utc : Bool) (m : Moment) : List Char :=
  if utc then "UTC".toList
  else offsetChars m.offset (if m.offset % 60 = 0 then .minutes true else .seconds)

/-- A moment in the form of messages on the net. -/
def timeText (m : Moment) : List Char :=
  spell m "Y-m-dTH:M:S" ++ dottedFraction m ++ offsetChars m.offset (.minutes true)

/-- The text that a letter asks for which is no number. The name of the zone is `UTC` only if the
format is for it. -/
def textField? (utc : Bool) (m : Moment) : Char → Option (List Char)
  | '%' => some ['%']
  | 'n' => some ['\n']
  | 't' => some ['\t']
  | 'D' => some (spell m "m/d/y")
  | 'x' => some (spell m "m/d/y")
  | 'F' => some (spell m "Y-m-d")
  | 'v' => some (spell m "e-b-Y")
  | 'R' => some (spell m "H:M")
  | 'T' => some (spell m "H:M:S")
  | 'X' => some (spell m "H:M:S")
  | 'r' => some (spell m "I:M:S p")
  | 'c' => some (spell m "a b e H:M:S Y")
  | '+' => some (timeText m)
  | 'z' => some (offsetChars m.offset (.minutes false))
  | 'Z' => some (zoneName utc m)
  | letter => (nameField? m letter).map String.toList

/-- Fills in the directives of a format, or tells that one is invalid. -/
def formatTime (utc : Bool) (m : Moment) : List Char → Option (List Char)
  | [] => some []
  | '%' :: ':' :: 'z' :: cs =>
    (formatTime utc m cs).map (offsetChars m.offset (.minutes true) ++ ·)
  | '%' :: ':' :: ':' :: 'z' :: cs => (formatTime utc m cs).map (offsetChars m.offset .seconds ++ ·)
  | '%' :: ':' :: ':' :: ':' :: 'z' :: cs =>
    (formatTime utc m cs).map (offsetChars m.offset .hours ++ ·)
  | '%' :: '.' :: 'f' :: cs => (formatTime utc m cs).map (dottedFraction m ++ ·)
  | '%' :: '.' :: '3' :: 'f' :: cs => (formatTime utc m cs).map ('.' :: fraction m 3 ++ ·)
  | '%' :: '.' :: '6' :: 'f' :: cs => (formatTime utc m cs).map ('.' :: fraction m 6 ++ ·)
  | '%' :: '.' :: '9' :: 'f' :: cs => (formatTime utc m cs).map ('.' :: fraction m 9 ++ ·)
  | '%' :: '3' :: 'f' :: cs => (formatTime utc m cs).map (fraction m 3 ++ ·)
  | '%' :: '6' :: 'f' :: cs => (formatTime utc m cs).map (fraction m 6 ++ ·)
  | '%' :: '9' :: 'f' :: cs => (formatTime utc m cs).map (fraction m 9 ++ ·)
  | '%' :: c :: d :: cs =>
    match Padding.ofMark? c with
    | some padding =>
      match numberField? m d with
      | some f => (formatTime utc m cs).map (NumberField.chars { f with padding := padding } ++ ·)
      | none => none
    | none =>
      match numberField? m c, textField? utc m c with
      | some f, _ => (formatTime utc m (d :: cs)).map (f.chars ++ ·)
      | none, some t => (formatTime utc m (d :: cs)).map (t ++ ·)
      | none, none => none
  | ['%', c] =>
    match numberField? m c, textField? utc m c with
    | some f, _ => some f.chars
    | none, some t => some t
    | none, none => none
  | ['%'] => none
  | c :: cs => (formatTime utc m cs).map (c :: ·)

/-- The start of 1970 on a Thursday, a second before it on a Wednesday, and a leap day. -/
example :
    (formatTime true (Instant.epoch.momentAt 0) "%c %j %V %+".toList).map String.ofList =
        some "Thu Jan  1 00:00:00 1970 001 01 1970-01-01T00:00:00+00:00" ∧
      (formatTime false (Instant.epoch.momentAt (-1)) "%A %F %G-%U %r %::z".toList).map
        String.ofList = some "Wednesday 1969-12-31 1970-52 11:59:59 PM -00:00:01" ∧
      (formatTime false (Instant.momentAt ⟨1709164800, 1230000, 0⟩ 7200) "%a %e %h %y%.f %Z".toList
        ).map String.ofList = some "Thu 29 Feb 24.001230 +02:00" := by decide +kernel

end ConfTree.Macro
