import StackVm.Binary64.Basic
/-!
# TOML documents

A document is a table of keys and items. A table remembers how it came about, because that decides
who may still add to it: a header opens a table once, a header's path may pass through any table
but an inline one, and a dotted key adds only to what dotted keys have made. The operations here
are partial where a document would define something twice.
-/

namespace StackVm.Toml

/-- A day of the calendar. -/
structure Date where
  /-- The year. -/
  year : Nat
  /-- The month, from one. -/
  month : Nat
  /-- The day, from one. -/
  day : Nat
  deriving DecidableEq, Repr

/-- A time of day. -/
structure Time where
  /-- The hour. -/
  hour : Nat
  /-- The minute. -/
  minute : Nat
  /-- The second; sixty is a leap second. -/
  second : Nat
  /-- The fraction of the second, in units of `10 ^ -9`, what is finer cut off. -/
  nanosecond : Nat
  deriving DecidableEq, Repr

/-- A day, a time, or both, then possibly with the offset from universal time in minutes. -/
inductive DateTime where
  /-- A day alone. -/
  | day (date : Date)
  /-- A time alone. -/
  | time (time : Time)
  /-- A day and a time. -/
  | moment (date : Date) (time : Time) (offset : Option Int)
  deriving DecidableEq, Repr

/-- How a table came about. -/
inductive Origin where
  /-- By a header of its own, or as a row of an array of tables. -/
  | header
  /-- By the header of a table below it. -/
  | implied
  /-- By a dotted key. -/
  | dotted
  /-- By braces. -/
  | inline
  deriving DecidableEq, Repr

/-- What a key stands for. -/
inductive Item where
  /-- A string. -/
  | string (text : String)
  /-- An integer. -/
  | integer (i : Int)
  /-- A number with a fraction or an exponent, or one of the special ones. -/
  | float (x : Binary64)
  /-- A truth value. -/
  | boolean (b : Bool)
  /-- A day, a time or both. -/
  | dateTime (d : DateTime)
  /-- An array of values. -/
  | array (items : List Item)
  /-- A table. -/
  | table (origin : Origin) (entries : List (String × Item))
  /-- An array of tables, each opened by a header. -/
  | tables (rows : List (List (String × Item)))
  deriving Inhabited

/-- Keys with their items, in the order of their definition. -/
abbrev Table := List (String × Item)

namespace Table

/-- Gives a key that is present another item. -/
def set (table : Table) (key : String) (item : Item) : Table :=
  table.map fun entry => if entry.1 = key then (key, item) else entry

/-- Adds a key that is absent. -/
def add (table : Table) (key : String) (item : Item) : Option Table :=
  if (table.lookup key).isSome then none else some (table ++ [(key, item)])

/-- Changes the last of some tables. -/
def editLast (edit : Table → Option Table) (rows : List Table) : Option (List Table) := do
  let row ← rows.getLast?
  return rows.dropLast ++ [← edit row]

/-- Changes the table that a header's path reaches. Tables that are missing on the way come about;
an array of tables is passed through its last row. -/
def within (edit : Table → Option Table) : List String → Table → Option Table
  | [], table => edit table
  | key :: path, table =>
    match table.lookup key with
    | none => do table.add key (.table .implied (← within edit path []))
    | some (.table .inline _) => none
    | some (.table origin entries) => do
      return table.set key (.table origin (← within edit path entries))
    | some (.tables rows) => do return table.set key (.tables (← editLast (within edit path) rows))
    | some _ => none

/-- Gives a dotted key an item. The tables on its way come about or were made by dotted keys; one
that only a header implies may be passed through, but nothing is added to it directly. -/
def assign (key : String) (item : Item) : List String → Table → Option Table
  | [], table => table.add key item
  | first :: path, table =>
    match table.lookup first with
    | none => do table.add first (.table .dotted (← assign key item path []))
    | some (.table .dotted entries) => do
      return table.set first (.table .dotted (← assign key item path entries))
    | some (.table .implied entries) =>
      if path.isEmpty then none
      else do return table.set first (.table .implied (← assign key item path entries))
    | some (.tables rows) =>
      if path.isEmpty then none
      else do return table.set first (.tables (← editLast (assign key item path) rows))
    | some _ => none

/-- Opens a table by a header. A table that only headers below it have implied may still be
opened. -/
def openTable (key : String) (table : Table) : Option Table :=
  match table.lookup key with
  | none => table.add key (.table .header [])
  | some (.table .implied entries) => some (table.set key (.table .header entries))
  | some _ => none

/-- Opens a further row of an array of tables. -/
def openRow (key : String) (table : Table) : Option Table :=
  match table.lookup key with
  | none => table.add key (.tables [[]])
  | some (.tables rows) => some (table.set key (.tables (rows ++ [[]])))
  | some _ => none

end Table

end StackVm.Toml
