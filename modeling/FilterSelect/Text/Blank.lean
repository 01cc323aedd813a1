import FilterSelect.Text.Ranges

/-!
# Blanks

A blank is a character with Unicode's White_Space property. The zero width space U+200B and the
byte order mark U+FEFF are none.
-/

namespace FilterSelect.Text

/-- The ranges of the White_Space property. -/
def blanks : Ranges :=
  [(0x09, 0x0D), (0x20, 0x20), (0x85, 0x85), (0xA0, 0xA0), (0x1680, 0x1680), (0x2000, 0x200A),
    (0x2028, 0x2029), (0x202F, 0x202F), (0x205F, 0x205F), (0x3000, 0x3000)]

/-- Whether `c` has the White_Space property. -/
def isBlank (c : Char) : Bool := blanks.contains c

/-- The text without the blanks at its two ends. -/
def strip (cs : List Char) : List Char :=
  ((cs.dropWhile isBlank).reverse.dropWhile isBlank).reverse

end FilterSelect.Text
