import Mathlib.Init

/-!
# Texts of UTF-16 units

A text of JavaScript is the list of its units. `trim` takes the white space from both of its ends.
-/

namespace Utf16

abbrev Units := List UInt16

def unit (c : Char) : UInt16 := c.toNat.toUInt16

/-- The units that `trim` takes away. -/
def isWhitespace (u : UInt16) : Bool :=
  (9 ≤ u && u ≤ 13) || u = 32 || u = 0xa0 || u = 0x1680 || (0x2000 ≤ u && u ≤ 0x200a) || u = 0x2028 || u = 0x2029 ||
    u = 0x202f || u = 0x205f || u = 0x3000 || u = 0xfeff

def trim (s : Units) : Units := ((s.dropWhile isWhitespace).reverse.dropWhile isWhitespace).reverse

end Utf16
