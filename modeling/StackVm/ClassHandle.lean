/-!
# Class references

A reference to a class or module carries its identifier, its qualified name and the classes above
it. It is fixed when the class is defined: nothing that happens later changes what it says.
-/

namespace StackVm

/-- What a class or module says about itself. -/
structure ClassHeader where
  /-- The identifier, which alone tells two classes apart. -/
  id : UInt32
  /-- The qualified name, `Outer::Inner`. -/
  name : String
  /-- A module, rather than a class. -/
  isModule : Bool
  deriving DecidableEq, Inhabited, Repr

/-- A class or module with the classes above it, nearest first. -/
structure ClassHandle extends ClassHeader where
  /-- The superclass, its superclass, and so on. -/
  parents : List ClassHeader
  deriving DecidableEq, Inhabited, Repr

namespace ClassHandle

/-- The direct superclass. -/
def superclass? (c : ClassHandle) : Option ClassHandle :=
  match c.parents with
  | [] => none
  | header :: rest => some { toClassHeader := header, parents := rest }

/-- The class itself, then the classes above it. -/
def ancestors (c : ClassHandle) : List ClassHeader := c.toClassHeader :: c.parents

/-- A class directly below this one. -/
def subclass (c : ClassHandle) (id : UInt32) (name : String) : ClassHandle :=
  { id, name, isModule := false, parents := c.ancestors }

/-- A class or module with nothing above it. -/
def root (id : UInt32) (name : String) (isModule : Bool) : ClassHandle :=
  { id, name, isModule, parents := [] }

end ClassHandle

end StackVm
