/-!
# Blank characters

Blank characters are those with the Unicode property White_Space. Names and paths are trimmed of
them at both ends.
-/

namespace ConfTree.Text

/-- The characters with the property White_Space. -/
def isBlank (c : Char) : Bool :=
  let n := c.toNat
  (9 ≤ n && n ≤ 13) || n == 0x20 || n == 0x85 || n == 0xA0 || n == 0x1680
    || (0x2000 ≤ n && n ≤ 0x200A) || n == 0x2028 || n == 0x2029 || n == 0x202F || n == 0x205F
    || n == 0x3000

/-- The list without the blanks at its front. -/
def trimFront (cs : List Char) : List Char := cs.dropWhile isBlank

/-- The list without the blanks at its end. -/
def trimBack (cs : List Char) : List Char := (cs.reverse.dropWhile isBlank).reverse

/-- The list without the blanks at its ends. -/
def trimChars (cs : List Char) : List Char := trimBack (trimFront cs)

/-- The text without the blanks at its ends. -/
def trim (s : String) : String := String.ofList (trimChars s.toList)

/-- The text has no character that is not blank. -/
def isBlankText (s : String) : Bool := s.toList.all isBlank

end ConfTree.Text
