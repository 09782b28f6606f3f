import Equational.Unicode.RangeTable

/-!
# Ignorable characters

The property *Default_Ignorable_Code_Point*: characters that are not shown at all unless something
gives them a shape, such as joiners, variation selectors and the Hangul fillers.
-/

namespace Equational.Unicode

def defaultIgnorableRanges : RangeTable :=
  [(0xAD, 0xAD), (0x34F, 0x34F), (0x61C, 0x61C), (0x115F, 0x1160), (0x17B4, 0x17B5),
    (0x180B, 0x180F), (0x200B, 0x200F), (0x202A, 0x202E), (0x2060, 0x206F), (0x3164, 0x3164),
    (0xFE00, 0xFE0F), (0xFEFF, 0xFEFF), (0xFFA0, 0xFFA0), (0xFFF0, 0xFFF8),
    (0x1BCA0, 0x1BCA3), (0x1D173, 0x1D17A), (0xE0000, 0xE0FFF)]

def isDefaultIgnorable (c : Char) : Bool := defaultIgnorableRanges.covers c.toNat

end Equational.Unicode
