import StackVm.Fault
import StackVm.Text.Record
import StackVm.Value.Inspect
import StackVm.Word
/-!
# The operand stack

A stack of bounded height. Depths are counted from the top, which has depth zero. A failing
operation reports how many values it needed, or the bound that it met, and changes nothing.
-/

namespace StackVm

/-- A bounded stack of values. -/
structure Stack where
  /-- The values, bottom first. -/
  slots : Array Value
  /-- The number of values it may hold. -/
  limit : UInt64
  deriving Inhabited

namespace Stack

/-- The bound of a stack for which none is given. -/
def defaultLimit : UInt64 := 65536

/-- A stack without values. -/
def empty (limit : UInt64) : Stack := ⟨#[], limit⟩

/-- The number of values. -/
def depth (s : Stack) : Nat := s.slots.size

/-- The values, bottom first. -/
def toList (s : Stack) : List Value := s.slots.toList

/-- Whether the stack holds as many values as it may. -/
def isFull (s : Stack) : Bool := decide (s.limit.toNat ≤ s.depth)

/-- Checks that one more value fits. -/
def checkRoom (s : Stack) : Except Fault Unit :=
  if s.isFull then .error (.stackOverflow s.limit.toNat) else .ok ()

/-- Checks that there are a number of values. -/
def checkDepth (s : Stack) (needed : UInt64) : Except Fault Unit :=
  if s.depth < needed.toNat then .error (.stackUnderflow needed.toNat s.depth) else .ok ()

/-- The report of a depth at which there is no value. -/
def missingAt (s : Stack) (depth : UInt64) : Fault :=
  .stackUnderflow (saturatingSucc depth).toNat s.depth

/-! ## Operations whose conditions hold -/

/-- The stack with a value on top, whether it fits or not. -/
def put (s : Stack) (v : Value) : Stack := { s with slots := s.slots.push v }

/-- The top values, bottom first. -/
def top (s : Stack) (count : Nat) : List Value :=
  (s.slots.extract (s.depth - count) s.depth).toList

/-- The two top values, the lower first, if there are two. -/
def topPair? (s : Stack) : Option (Value × Value) :=
  match s.top 2 with
  | [lower, upper] => some (lower, upper)
  | _ => none

/-- The stack without its top values. -/
def drop (s : Stack) (count : Nat) : Stack :=
  { s with slots := s.slots.shrink (s.depth - count) }

/-- The stack with the value at a depth replaced. -/
def replace (s : Stack) (depth : Nat) (v : Value) : Stack :=
  { s with slots := s.slots.setIfInBounds (s.depth - 1 - depth) v }

/-! ## The view as a list

What each of these operations does is said by its effect on the list of values, bottom first. -/

theorem depth_eq_length (s : Stack) : s.depth = s.toList.length := by
  simp [depth, toList]

@[simp]
theorem toList_put (s : Stack) (v : Value) : (s.put v).toList = s.toList ++ [v] := by
  simp [put, toList]

theorem top_eq_drop (s : Stack) (count : Nat) :
    s.top count = s.toList.drop (s.depth - count) := by
  simp only [top, toList, depth, Array.toList_extract, List.extract_eq_take_drop]
  exact List.take_of_length_le (by simp)

@[simp]
theorem toList_drop (s : Stack) (count : Nat) :
    (s.drop count).toList = s.toList.take (s.depth - count) := by
  simp [drop, toList, depth, Array.shrink_eq_take]

/-- The top values and what lies below them make up the stack. -/
theorem toList_drop_append_top (s : Stack) (count : Nat) :
    (s.drop count).toList ++ s.top count = s.toList := by
  rw [toList_drop, top_eq_drop, List.take_append_drop]

@[simp]
theorem toList_replace (s : Stack) (depth : Nat) (v : Value) :
    (s.replace depth v).toList = s.toList.set (s.depth - 1 - depth) v := by
  simp [replace, toList]

@[simp]
theorem depth_put (s : Stack) (v : Value) : (s.put v).depth = s.depth + 1 := by
  simp [depth_eq_length]

@[simp]
theorem depth_drop (s : Stack) (count : Nat) : (s.drop count).depth = s.depth - count := by
  simp [depth_eq_length]

@[simp]
theorem depth_replace (s : Stack) (depth : Nat) (v : Value) :
    (s.replace depth v).depth = s.depth := by
  simp [depth_eq_length]

/-- A stack is its values and its limit. -/
theorem ext_toList {s t : Stack} (hvalues : s.toList = t.toList) (hlimit : s.limit = t.limit) :
    s = t := by
  cases s
  cases t
  simp_all [toList]

/-! ## Checked operations -/

/-- Puts a value on top. -/
@[inline]
def push (s : Stack) (v : Value) : Except Fault Stack := do
  s.checkRoom
  return s.put v

/-- Puts a value on top a number of times, or as often as it fits. -/
def fill (s : Stack) (v : Value) : Nat → Stack × Except Fault Unit
  | 0 => (s, .ok ())
  | count + 1 =>
    match s.push v with
    | .ok t => t.fill v count
    | .error fault => (s, .error fault)

/-- Takes a number of values, in the order in which they were pushed. -/
def popMany (s : Stack) (count : UInt64) : Except Fault (List Value × Stack) := do
  s.checkDepth count
  return (s.top count.toNat, s.drop count.toNat)

/-- Takes the top value. -/
def pop (s : Stack) : Except Fault (Value × Stack) :=
  match s.slots.back? with
  | some v => .ok (v, s.drop 1)
  | none => .error (.stackUnderflow 1 0)

/-- The value at a depth. -/
def get (s : Stack) (depth : UInt64) : Except Fault Value :=
  if _inside : depth.toNat < s.slots.size then
    .ok s.slots[s.slots.size - 1 - depth.toNat]
  else .error (s.missingAt depth)

/-- Replaces the value at a depth. -/
def set (s : Stack) (depth : UInt64) (v : Value) : Except Fault Stack :=
  if depth.toNat < s.depth then .ok (s.replace depth.toNat v) else .error (s.missingAt depth)

/-- The stack without any of its values. -/
def clear (s : Stack) : Stack := { s with slots := #[] }

/-- The diagnostic form of a stack. -/
def dump (s : Stack) : String :=
  Text.Record.dump "Stack"
    [("slots", Text.Record.dumpList (s.toList.map Value.inspect)),
     ("max_size", toString s.limit.toNat)]

end Stack

end StackVm
