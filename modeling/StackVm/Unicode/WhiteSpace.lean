import StackVm.Unicode.Range
/-!
# Blanks

The characters with the property White_Space in Unicode 17, in ascending order.
-/

namespace StackVm.Unicode

/-- The runs of characters with the property White_Space. -/
def whiteSpace : RangeTable :=
  [(0x0009, 0x000D), (0x0020, 0x0020), (0x0085, 0x0085), (0x00A0, 0x00A0), (0x1680, 0x1680),
   (0x2000, 0x200A), (0x2028, 0x2029), (0x202F, 0x202F), (0x205F, 0x205F), (0x3000, 0x3000)]

end StackVm.Unicode
