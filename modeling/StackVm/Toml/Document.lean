import StackVm.Toml.Number
/-!
# Reading TOML

A document is a sequence of lines: blank or comment, a header that opens a table or a row of an
array of tables, or a key with its value. Values nest in arrays and inline tables up to a fixed
depth; only the brackets of an array let a value run over several lines without marks of its own.

Readers of a sequence take a bound on the number of its members. As every member takes at least one
character, the length of the document is a bound for each sequence in it.
-/

namespace StackVm.Toml

/-! ## Values -/

/-- A value that is neither an array nor an inline table. -/
def scalar : Reader Item := fun s =>
  match s with
  | '"' :: _ | '\x27' :: _ => do
    let (text, rest) ← string s
    return (.string text, rest)
  | 't' :: 'r' :: 'u' :: 'e' :: rest => some (.boolean true, rest)
  | 'f' :: 'a' :: 'l' :: 's' :: 'e' :: rest => some (.boolean false, rest)
  | _ => dateTime s <|> float s <|> integer s

/-- The rest of an array, up to its closing bracket. A comma may stand after the last value. -/
def elements (value : Reader Item) : Nat → Reader (List Item)
  | 0, _ => none
  | bound + 1, s =>
    match skipTrivia false s with
    | ']' :: rest => some ([], rest)
    | start => do
      let (item, rest) ← value start
      match skipTrivia false rest with
      | ']' :: rest => return ([item], rest)
      | ',' :: rest =>
        let (items, rest) ← elements value bound rest
        return (item :: items, rest)
      | _ => none

/-- A key, an equals sign and a value. -/
def keyValue (value : Reader Item) : Reader ((List String × String) × Item) := fun s => do
  let (name, rest) ← key s
  let (item, rest) ← value (skipBlanks (← after? '=' rest))
  return ((name, item), rest)

/-- The rest of an inline table that holds `table` so far, up to its closing brace. -/
def members (value : Reader Item) : Nat → Table → Reader Table
  | 0, _, _ => none
  | bound + 1, table, s => do
    let (((path, name), item), rest) ← keyValue value s
    let table ← table.assign name item path
    match skipBlanks rest with
    | '\x7d' :: rest => return (table, rest)
    | ',' :: rest => members value bound table rest
    | _ => none

/-- An inline table after its opening brace. -/
def inlineTable (bound : Nat) (value : Reader Item) : Reader Item := fun s => do
  let (table, rest) ← match skipBlanks s with
    | '\x7d' :: rest => some ([], rest)
    | start => members value bound [] start
  return (.table .inline table, rest)

/-- A value with at most `depth` arrays and inline tables around its parts. -/
def value (bound : Nat) : (depth : Nat) → Reader Item
  | 0 => scalar
  | depth + 1 => fun s =>
    match s with
    | '[' :: rest => do
      let (items, rest) ← elements (value bound depth) bound rest
      return (.array items, rest)
    | '\x7b' :: rest => inlineTable bound (value bound depth) rest
    | s => scalar s

/-! ## Documents -/

/-- What has been read of a document: its tables, and the path of the header read last. -/
structure Draft where
  /-- The whole document so far. -/
  root : Table := []
  /-- Where keys without a header of their own go. -/
  path : List String := []

/-- Opens a table or a row by a header: `shape` says what its last name becomes. -/
def Draft.openHeader (draft : Draft) (shape : String → Table → Option Table)
    (header : List String × String) : Option Draft := do
  let root ← draft.root.within (shape header.2) header.1
  return { root, path := header.1 ++ [header.2] }

/-- Gives a key an item in the table of the last header. -/
def Draft.assign (draft : Draft) (name : List String × String) (item : Item) : Option Draft := do
  let root ← draft.root.within (Table.assign name.2 item name.1) draft.path
  return { draft with root }

/-- One line, or the lines of one key and value, that starts without blanks. -/
def expression (bound : Nat) (draft : Draft) : Reader Draft := fun s =>
  match s with
  | '#' :: _ | '\n' :: _ | '\r' :: _ => do return (draft, ← endLine? s)
  | '[' :: '[' :: rest => do
    let (header, rest) ← key rest
    let rest ← endLine? (← after? ']' (← after? ']' rest))
    return (← draft.openHeader Table.openRow header, rest)
  | '[' :: rest => do
    let (header, rest) ← key rest
    let rest ← endLine? (← after? ']' rest)
    return (← draft.openHeader Table.openTable header, rest)
  | s => do
    let ((name, item), rest) ← keyValue (value bound (depthLimit - 1)) s
    let rest ← endLine? rest
    return (← draft.assign name item, rest)

/-- The rest of a document, which has at most so many lines as the second bound says. -/
def expressions (bound : Nat) : Nat → Draft → List Char → Option Table
  | 0, _, _ => none
  | lines + 1, draft, s =>
    match skipBlanks s with
    | [] => some draft.root
    | start => do
      let (draft, rest) ← expression bound draft start
      expressions bound lines draft rest

/-- Reads a document. A byte order mark may stand before it. -/
def parse? (text : String) : Option Table :=
  let s := match text.toList with
    | '\uFEFF' :: rest => rest
    | s => s
  expressions (s.length + 1) (s.length + 1) {} s

end StackVm.Toml
