import Std.Data.HashMap
import StackVm.Environment
import StackVm.Text.Record
import StackVm.Value.Inspect
/-!
# The class table

The environment of a running system: the classes and modules defined so far, the constants that
each of them holds, and a serial that counts definitions. A look-up in a class searches the class,
the classes above it and then the top level, whose constants belong to `Object`.
-/

namespace StackVm

/-- The classes defined so far and their constants. -/
structure ClassTable where
  /-- The classes and modules, in the order of their definition. -/
  classes : Array ClassHandle
  /-- The constants, by the identifier of the class that holds them and their names. -/
  constants : Std.HashMap (UInt32 × String) Value
  /-- The number of definitions made, modulo `2 ^ 64`. -/
  serial : UInt64

namespace ClassTable

/-! ## The core classes -/

/-- The class above all others. -/
def basicObject : ClassHandle := .root 0 "BasicObject" false

/-- The class that holds the top-level constants. -/
def object : ClassHandle := basicObject.subclass 1 "Object"

/-- The class of modules. -/
def moduleClass : ClassHandle := object.subclass 2 "Module"

/-- The class of numbers. -/
def numeric : ClassHandle := object.subclass 6 "Numeric"

/-- The classes and modules that every class table starts with, by identifier. -/
def coreClasses : List ClassHandle :=
  [basicObject, object, moduleClass, moduleClass.subclass 3 "Class", .root 4 "Kernel" true,
   .root 5 "Comparable" true, numeric, numeric.subclass 7 "Integer", numeric.subclass 8 "Float",
   object.subclass 9 "String", object.subclass 10 "Symbol", object.subclass 11 "Hash",
   object.subclass 12 "NilClass", object.subclass 13 "TrueClass", object.subclass 14 "FalseClass"]

/-- The class table with the core classes, each a constant of the top level. -/
def core : ClassTable where
  classes := coreClasses.toArray
  constants :=
    coreClasses.foldl (fun table c => table.insert (object.id, c.name) (.classHandle c)) ∅
  serial := 0

/-! ## Definitions -/

/-- Binds a name in a class, whatever it was bound to before. -/
def defineConstant (t : ClassTable) (owner : ClassHandle) (name : String) (value : Value) :
    ClassTable :=
  { t with
    constants := t.constants.insert (owner.id, name) value
    serial := t.serial + 1 }

/-- Binds a name at the top level. -/
def defineGlobal (t : ClassTable) (name : String) (value : Value) : ClassTable :=
  t.defineConstant object name value

/-- A name as seen from the top level: names in `Object` stand alone, others after their owner. -/
def qualify (owner : ClassHandle) (name : String) : String :=
  if owner.id = object.id then name else owner.name ++ "::" ++ name

/-- Registers a class under the next identifier and binds its name in its namespace. -/
def register (t : ClassTable) (name : String) (isModule : Bool)
    (parents : List ClassHeader) (space : ClassHandle) : ClassHandle × ClassTable :=
  let c : ClassHandle :=
    { id := UInt32.ofNat t.classes.size, name := qualify space name, isModule, parents }
  (c, { t with classes := t.classes.push c }.defineConstant space name (.classHandle c))

/-- Defines a class. Superclass and namespace are `Object` unless given. -/
def defineClass (t : ClassTable) (name : String) (superclass space : Option ClassHandle) :
    ClassHandle × ClassTable :=
  t.register name false (superclass.getD object).ancestors (space.getD object)

/-- Defines a module. The namespace is `Object` unless given. -/
def defineModule (t : ClassTable) (name : String) (space : Option ClassHandle) :
    ClassHandle × ClassTable :=
  t.register name true [] (space.getD object)

/-! ## Look-up -/

/-- The value that a class itself binds a name to. -/
def own? (t : ClassTable) (owner : ClassHeader) (name : String) : Option Value :=
  t.constants[(owner.id, name)]?

/-- The classes that a scope is searched in, in order. -/
def searchPath? : Value → Option (List ClassHeader)
  | .nil => some [object.toClassHeader]
  | .classHandle c => some (c.ancestors ++ [object.toClassHeader])
  | _ => none

/-- The name that a failed look-up in a scope reports. -/
def reportedName (scope : Value) (name : String) : String :=
  match scope with
  | .classHandle c => qualify c name
  | _ => name

/-- The value of a name in a scope: that of the first class on the scope's path that binds it. -/
def resolve (t : ClassTable) (scope : Value) (name : String) :
    Except LookupError Value :=
  match searchPath? scope with
  | none => .error (.notAClass scope.inspect)
  | some path =>
    match path.findSome? fun owner => t.own? owner name with
    | some value => .ok value
    | none => .error (.constantNotFound (reportedName scope name))

/-- The class table as the machine sees it. -/
def environment (t : ClassTable) : Environment where
  resolve := t.resolve
  serial := t.serial

/-! ## Dumps -/

/-- The diagnostic form of a class table. -/
def dump (t : ClassTable) : String :=
  Text.Record.dump "HostObjectModel"
    [("classes", toString t.classes.size), ("serial", toString t.serial.toNat)]

end ClassTable

/-- The diagnostic form of a class reference. -/
def ClassHandle.dump (c : ClassHandle) : String :=
  Text.Record.dump "ClassRef"
    [("id", toString c.id.toNat), ("name", Text.Record.dumpText c.name),
     ("kind", if c.isModule then "Module" else "Class")]

end StackVm
