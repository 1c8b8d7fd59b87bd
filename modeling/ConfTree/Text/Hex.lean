/-!
# Hexadecimal digits

The values of hexadecimal digits in either case.
-/

namespace ConfTree.Text

/-- The value of a hexadecimal digit. -/
def hexValue? (c : Char) : Option Nat :=
  if c.isDigit then some (c.toNat - '0'.toNat)
  else if 'a' ≤ c && c ≤ 'f' then some (c.toNat - 'a'.toNat + 10)
  else if 'A' ≤ c && c ≤ 'F' then some (c.toNat - 'A'.toNat + 10)
  else none

/-- The value of a decimal digit. -/
def decimalValue? (c : Char) : Option Nat := if c.isDigit then some (c.toNat - '0'.toNat) else none

/-- The number that a list of digits spells in the given base. -/
def readDigits? (digit? : Char → Option Nat) (base : Nat) (cs : List Char) : Option Nat :=
  if cs.isEmpty then none
  else
    cs.foldl (fun n c => do
      let n ← n
      let d ← digit? c
      return n * base + d) (some 0)

/-- The character of a code point that is no surrogate. -/
def codePoint? (n : Nat) : Option Char :=
  if 0x110000 ≤ n || (0xD800 ≤ n && n < 0xE000) then none else some (Char.ofNat n)

end ConfTree.Text
