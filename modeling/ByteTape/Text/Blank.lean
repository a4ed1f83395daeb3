import ByteTape.Text.Ranges

/-! # White space

    The characters that count as blank around a number: the ASCII controls
    from tabulator to carriage return, the space, and the white space of the
    rest of Unicode. -/

namespace ByteTape.Text

/-- The ranges of blank code points, ends included, in order. -/
def blankRanges : List (Nat × Nat) :=
  [(0x9, 0xD), (0x20, 0x20), (0x85, 0x85), (0xA0, 0xA0), (0x1680, 0x1680), (0x2000, 0x200A),
   (0x2028, 0x2029), (0x202F, 0x202F), (0x205F, 0x205F), (0x3000, 0x3000)]

/-- Whether a character is blank. -/
def isBlank (c : Char) : Bool :=
  inRanges blankRanges c.toNat

end ByteTape.Text
