/-!
# Reading integers

An integer is written as an optional sign and decimal digits. Digits are taken from the left, and
the first one that is no digit or leaves the range ends the reading.
-/

namespace ConfTree.Text

/-- Why a text is not an integer of a given range. -/
inductive IntegerFault where
  | empty
  | invalidDigit
  | tooLarge
  | tooSmall
  deriving DecidableEq, Repr

/-- The wording of a fault. -/
def IntegerFault.message : IntegerFault → String
  | .empty => "cannot parse integer from empty string"
  | .invalidDigit => "invalid digit found in string"
  | .tooLarge => "number too large to fit in target type"
  | .tooSmall => "number too small to fit in target type"

/-- A closed range of integers. -/
structure IntegerRange where
  least : Int
  greatest : Int

/-- The integers of 64 bits with a sign. -/
def IntegerRange.signed64 : IntegerRange := ⟨-9223372036854775808, 9223372036854775807⟩

/-- The integers of 64 bits without a sign. -/
def IntegerRange.unsigned64 : IntegerRange := ⟨0, 18446744073709551615⟩

/-- The integers of 16 bits without a sign. -/
def IntegerRange.unsigned16 : IntegerRange := ⟨0, 65535⟩

/-- The range holds the integer. -/
def IntegerRange.holds (r : IntegerRange) (i : Int) : Bool := r.least ≤ i && i ≤ r.greatest

/-- The value of a decimal digit. -/
def digitValue (c : Char) : Nat := c.toNat - '0'.toNat

/-- Appends the digits to `acc`, upwards or, for a negative number, downwards. -/
def IntegerRange.readDigits (r : IntegerRange) (negative : Bool) (acc : Int) :
    List Char → Except IntegerFault Int
  | [] => .ok acc
  | c :: cs =>
    if c.isDigit then
      let next := if negative then acc * 10 - digitValue c else acc * 10 + digitValue c
      if next < r.least then .error .tooSmall
      else if r.greatest < next then .error .tooLarge
      else r.readDigits negative next cs
    else .error .invalidDigit

/-- Reads an integer of the range. A minus sign is a digit out of place where no negative integer is
in the range. -/
def IntegerRange.read (r : IntegerRange) : List Char → Except IntegerFault Int
  | [] => .error .empty
  | ['+'] => .error .invalidDigit
  | ['-'] => .error .invalidDigit
  | '+' :: cs => r.readDigits false 0 cs
  | '-' :: cs => if r.least < 0 then r.readDigits true 0 cs else .error .invalidDigit
  | cs => r.readDigits false 0 cs

/-- The decimal text of an integer. -/
def integerText (i : Int) : String := toString i

end ConfTree.Text
