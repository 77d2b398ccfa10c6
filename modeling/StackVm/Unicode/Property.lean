import StackVm.Unicode.Alphabetic
import StackVm.Unicode.DefaultIgnorable
import StackVm.Unicode.ExtendingMark
import StackVm.Unicode.Numeric
import StackVm.Unicode.Unprintable
import StackVm.Unicode.WhiteSpace
/-!
# Character properties

The tests on characters that literals and listings are written by.
-/

namespace StackVm.Unicode

/-- A letter, in the sense of the property Alphabetic. -/
def isAlphabetic (c : Char) : Bool := alphabetic.contains c.toNat

/-- A character of a number category. -/
def isNumeric (c : Char) : Bool := numeric.contains c.toNat

/-- A letter or a number. -/
def isAlphanumeric (c : Char) : Bool := isAlphabetic c || isNumeric c

/-- A blank, in the sense of the property White_Space. -/
def isWhiteSpace (c : Char) : Bool := whiteSpace.contains c.toNat

/-- A control character: the category Cc is exactly these two runs. -/
def isControl (c : Char) : Bool :=
  c.toNat < 0x20 || (0x7F ≤ c.toNat && c.toNat < 0xA0)

/-- A mark that joins the character before it. -/
def isExtendingMark (c : Char) : Bool := extendingMark.contains c.toNat

/-- A character that shows nothing where it is not given a meaning of its own. -/
def isDefaultIgnorable (c : Char) : Bool := defaultIgnorable.contains c.toNat

/-- A character of a category that shows as itself. -/
def isPrintable (c : Char) : Bool := !unprintable.contains c.toNat

/-- A character that a reader can see, and tell apart from the one before it. -/
def isDistinct (c : Char) : Bool := isPrintable c && !isExtendingMark c && !isDefaultIgnorable c

end StackVm.Unicode
