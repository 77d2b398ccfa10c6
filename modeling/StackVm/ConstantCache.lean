import Std.Data.HashMap
import StackVm.Value.Basic
/-!
# Inline constant caches

Each place in a program that reads a constant has a slot, which keeps the value found last and the
serial that the environment had then. A slot counts only while the serial is still the same. The
table also counts how often a slot was filled.
-/

namespace StackVm

/-- One cache slot. -/
structure CacheSlot where
  /-- The value kept, if any. -/
  value : Option Value := none
  /-- The serial under which it was found. -/
  serial : UInt64 := 0
  deriving Inhabited

namespace CacheSlot

/-- Whether the slot keeps a value that still counts under a serial. -/
def isValid (slot : CacheSlot) (serial : UInt64) : Bool :=
  slot.value.isSome && slot.serial == serial

end CacheSlot

/-- The cache slots of a program, by token. -/
structure ConstantCache where
  /-- The slots known so far. -/
  slots : Std.HashMap UInt32 CacheSlot := ∅
  /-- How often a slot was filled, in a word that wraps. -/
  fillCount : UInt64 := 0
  deriving Inhabited

namespace ConstantCache

/-- A table with an empty slot for each token. -/
def ofTokens (tokens : List UInt32) : ConstantCache where
  slots := tokens.foldl (fun slots token => slots.insert token {}) ∅

/-- How often a slot was filled, as far as a word counts. -/
def fills (cache : ConstantCache) : Nat := cache.fillCount.toNat

/-- The number of slots. -/
def size (cache : ConstantCache) : Nat := cache.slots.size

/-- The slot of a token, whether it counts or not. -/
def slot? (cache : ConstantCache) (token : UInt32) : Option CacheSlot := cache.slots[token]?

/-- Fills the slot of a token with a value found under a serial. -/
def store (cache : ConstantCache) (token : UInt32) (value : Value) (serial : UInt64) :
    ConstantCache where
  slots := cache.slots.insert token { value := some value, serial }
  fillCount := cache.fillCount + 1

/-- The value kept for a token, if it counts under a serial. -/
def lookup? (cache : ConstantCache) (token : UInt32) (serial : UInt64) : Option Value :=
  match cache.slot? token with
  | some slot => if slot.isValid serial then slot.value else none
  | none => none

/-- Empties every slot. -/
def clear (cache : ConstantCache) : ConstantCache :=
  { cache with slots := cache.slots.map fun _ _ => {} }

end ConstantCache

end StackVm
