/-!
# Sets of characters, and the blank ones

A set of characters is kept as a list of inclusive ranges of code points, in increasing order.

The characters that count as blank: the white space of the Unicode standard together with the
separators U+001C to U+001F.  A text is blank when nothing is left of it after trimming.
-/
namespace Campaign.Text

/-- A set of code points as inclusive ranges, in increasing order. -/
abbrev CodePoints := List (Nat × Nat)

/-- Membership; the search stops at the first range that ends at or after the code point. -/
def CodePoints.contains : CodePoints → Nat → Bool
  | [], _ => false
  | (low, high) :: rest, c => if c ≤ high then decide (low ≤ c) else contains rest c

/-- The blank characters. -/
def blanks : CodePoints := [
    (0x9, 0xd), (0x1c, 0x20), (0x85, 0x85), (0xa0, 0xa0), (0x1680, 0x1680), (0x2000, 0x200a),
    (0x2028, 0x2029), (0x202f, 0x202f), (0x205f, 0x205f), (0x3000, 0x3000)]

/-- Whether a character counts as blank. -/
def isBlank (c : Char) : Bool := blanks.contains c.toNat

/-- Drops the blanks at the end. -/
def trimRight (cs : List Char) : List Char := (cs.reverse.dropWhile isBlank).reverse

/-- Drops the blanks at both ends. -/
def trimChars (cs : List Char) : List Char := trimRight (cs.dropWhile isBlank)

/-- Drops the blanks at both ends. -/
def trim (s : String) : String := String.ofList (trimChars s.toList)

/-- Whether a text holds nothing but blanks. -/
def blankText (s : String) : Bool := s.toList.all isBlank

end Campaign.Text
