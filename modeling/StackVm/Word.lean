/-!
# Words

Sizes and depths are 64-bit words. Where a count past the greatest word would be needed, the
greatest word stands for it.
-/

namespace StackVm

/-- The successor of a word; the greatest word is its own. -/
def saturatingSucc (n : UInt64) : UInt64 := if n + 1 = 0 then n else n + 1

end StackVm
