import RowDerive.Text.CodeRange

/-!
# Blanks, separators and invisible characters

`isBlank` is the Unicode property White_Space together with the two direction marks, the characters
between two tokens. `isSeparator` and `isInvisible` are the general categories Z and C as Unicode 8
lists them, unassigned code points not at all.
-/

namespace RowDerive.Text

/-- White_Space, and the marks U+200E and U+200F. -/
def blankRanges : CodeRanges :=
  [(0x9, 0xD), (0x20, 0x20), (0x85, 0x85), (0xA0, 0xA0), (0x1680, 0x1680), (0x2000, 0x200A),
   (0x200E, 0x200F), (0x2028, 0x2029), (0x202F, 0x202F), (0x205F, 0x205F), (0x3000, 0x3000)]

/-- The categories Zs, Zl and Zp. -/
def separatorRanges : CodeRanges :=
  [(0x20, 0x20), (0xA0, 0xA0), (0x1680, 0x1680), (0x2000, 0x200A), (0x2028, 0x2029),
   (0x202F, 0x202F), (0x205F, 0x205F), (0x3000, 0x3000)]

/-- The categories Cc, Cf and Co. -/
def invisibleRanges : CodeRanges :=
  [(0x0, 0x1F), (0x7F, 0x9F), (0xAD, 0xAD), (0x600, 0x605), (0x61C, 0x61C), (0x6DD, 0x6DD),
   (0x70F, 0x70F), (0x180E, 0x180E), (0x200B, 0x200F), (0x202A, 0x202E), (0x2060, 0x2064),
   (0x2066, 0x206F), (0xE000, 0xF8FF), (0xFEFF, 0xFEFF), (0xFFF9, 0xFFFB),
   (0x110BD, 0x110BD), (0x1BCA0, 0x1BCA3), (0x1D173, 0x1D17A), (0xE0001, 0xE0001),
   (0xE0020, 0xE007F), (0xF0000, 0xFFFFD), (0x100000, 0x10FFFD)]

/-- Whether `c` may stand between two tokens. -/
def isBlank (c : Char) : Bool := blankRanges.contains c

/-- Whether `c` is a separator, the plain blank included. -/
def isSeparator (c : Char) : Bool := separatorRanges.contains c

/-- Whether `c` is a control, a format character or of private use. -/
def isInvisible (c : Char) : Bool := invisibleRanges.contains c

end RowDerive.Text
