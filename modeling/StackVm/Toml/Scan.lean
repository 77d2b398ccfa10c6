import StackVm.Text.Hex
/-!
# Blanks, strings and keys of TOML

Each reader takes the text that is left and gives what it read with the text after it, or nothing
where the text does not fit. A line ends with a line feed, before which a carriage return may
stand. Strings come in four forms: between quotation marks with escapes, between apostrophes
without, and both again between three marks over several lines.
-/

namespace StackVm.Toml

/-- A reader of a document's text. -/
abbrev Reader (α : Type) := List Char → Option (α × List Char)

/-! ## Blanks and comments -/

/-- A blank or a tab. -/
def isBlank (c : Char) : Bool := c == ' ' || c == '\t'

/-- A character that may stand in a comment: no control but the tab. -/
def isTextChar (c : Char) : Bool := c == '\t' || (0x20 ≤ c.toNat && c.toNat != 0x7F)

/-- The text after blanks. -/
def skipBlanks (s : List Char) : List Char := s.dropWhile isBlank

/-- The text after a comment, if there is one. -/
def skipComment : List Char → List Char
  | '#' :: rest => rest.dropWhile isTextChar
  | s => s

/-- The text after the end of a line. -/
def newline? : List Char → Option (List Char)
  | '\n' :: rest => some rest
  | '\r' :: '\n' :: rest => some rest
  | _ => none

/-- The text of the next line, if only blanks and a comment are left on this one. -/
def endLine? (s : List Char) : Option (List Char) :=
  match skipComment (skipBlanks s) with
  | [] => some []
  | rest => newline? rest

/-- The text after blanks, comments and ends of lines. A comment that no line's end follows leaves
a character that nothing fits. -/
def skipTrivia (inComment : Bool) : List Char → List Char
  | [] => []
  | c :: rest =>
    if c = '\n' then skipTrivia false rest
    else if c = '\r' then
      match rest with
      | '\n' :: _ => skipTrivia false rest
      | _ => c :: rest
    else if inComment then
      if isTextChar c then skipTrivia true rest else c :: rest
    else if isBlank c then skipTrivia false rest
    else if c = '#' then skipTrivia true rest
    else c :: rest

/-! ## Strings -/

/-- The character of a code point given by exactly `count` hexadecimal digits. -/
def scalar? (count : Nat) (digits : List Char) : Option Char := do
  guard (digits.length = count)
  let n ← digits.foldlM (fun n c => do return 16 * n + (← Text.hexValue? c)) 0
  guard n.isValidChar
  return Char.ofNat n

/-- The character that a letter after a backslash stands for. -/
def escapeLetter? : Char → Option Char
  | 'b' => some '\x08'
  | 'f' => some '\x0c'
  | 'n' => some '\n'
  | 'r' => some '\r'
  | 't' => some '\t'
  | '\\' => some '\\'
  | '"' => some '"'
  | _ => none

/-- A string after its opening quotation mark. -/
def basicString (s : List Char) : Option (List Char × List Char) :=
  match s with
  | [] => none
  | '"' :: rest => some ([], rest)
  | '\\' :: 'u' :: rest => do
    let c ← scalar? 4 (rest.take 4)
    let (text, rest) ← basicString (rest.drop 4)
    return (c :: text, rest)
  | '\\' :: 'U' :: rest => do
    let c ← scalar? 8 (rest.take 8)
    let (text, rest) ← basicString (rest.drop 8)
    return (c :: text, rest)
  | '\\' :: letter :: rest => do
    let c ← escapeLetter? letter
    let (text, rest) ← basicString rest
    return (c :: text, rest)
  | c :: rest =>
    if isTextChar c && c != '\\' then do
      let (text, rest) ← basicString rest
      return (c :: text, rest)
    else none
termination_by s.length

/-- A string after its opening apostrophe. -/
def literalString (s : List Char) : Option (List Char × List Char) :=
  match s.dropWhile fun c => isTextChar c && c != '\x27' with
  | '\x27' :: rest => some (s.takeWhile fun c => isTextChar c && c != '\x27', rest)
  | _ => none

/-- The marks that still belong to a string over several lines when three have closed it: up to
two. -/
def closingMarks (mark : Char) : List Char → List Char × List Char
  | a :: b :: rest =>
    if a = mark then if b = mark then ([mark, mark], rest) else ([mark], b :: rest)
    else ([], a :: b :: rest)
  | [a] => if a = mark then ([mark], []) else ([], [a])
  | [] => ([], [])

/-- A string over several lines after its opening quotation marks. A backslash before a line's end
takes out that end and all blanks and lines' ends after it, which is what `skipping` keeps up. -/
def multiBasicString (skipping : Bool) (s : List Char) : Option (List Char × List Char) :=
  match s with
  | [] => none
  | '"' :: '"' :: '"' :: rest => some (closingMarks '"' rest)
  | '\\' :: rest =>
    if (newline? (skipBlanks rest)).isSome then multiBasicString true rest
    else
      match rest with
      | [] => none
      | 'u' :: rest => do
        let c ← scalar? 4 (rest.take 4)
        let (text, rest) ← multiBasicString false (rest.drop 4)
        return (c :: text, rest)
      | 'U' :: rest => do
        let c ← scalar? 8 (rest.take 8)
        let (text, rest) ← multiBasicString false (rest.drop 8)
        return (c :: text, rest)
      | letter :: rest => do
        let c ← escapeLetter? letter
        let (text, rest) ← multiBasicString false rest
        return (c :: text, rest)
  | '\r' :: '\n' :: rest => do
    let (text, rest) ← multiBasicString skipping rest
    return (if skipping then text else '\n' :: text, rest)
  | c :: rest =>
    if isTextChar c || c == '\n' then do
      let skipped := skipping && (isBlank c || c == '\n')
      let (text, rest) ← multiBasicString skipped rest
      return (if skipped then text else c :: text, rest)
    else none
termination_by s.length

/-- A string over several lines after its opening apostrophes. -/
def multiLiteralString : List Char → Option (List Char × List Char)
  | [] => none
  | '\x27' :: '\x27' :: '\x27' :: rest => some (closingMarks '\x27' rest)
  | '\r' :: '\n' :: rest => do
    let (text, rest) ← multiLiteralString rest
    return ('\n' :: text, rest)
  | c :: rest =>
    if isTextChar c || c == '\n' then do
      let (text, rest) ← multiLiteralString rest
      return (c :: text, rest)
    else none

/-- The text without an end of line at its start, which a string over several lines does not
count. -/
def skipNewline (s : List Char) : List Char := (newline? s).getD s

/-- A string of any form. -/
def string : Reader String := fun s => do
  let (text, rest) ← match s with
    | '"' :: '"' :: '"' :: rest => multiBasicString false (skipNewline rest)
    | '"' :: rest => basicString rest
    | '\x27' :: '\x27' :: '\x27' :: rest => multiLiteralString (skipNewline rest)
    | '\x27' :: rest => literalString rest
    | _ => none
  return (String.ofList text, rest)

/-! ## Keys -/

/-- A character of a key without quotes. -/
def isBareKeyChar (c : Char) : Bool := c.isAlphanum || c == '_' || c == '-'

/-- One part of a key. -/
def simpleKey : Reader String := fun s => do
  match s with
  | '"' :: rest =>
    let (text, rest) ← basicString rest
    return (String.ofList text, rest)
  | '\x27' :: rest =>
    let (text, rest) ← literalString rest
    return (String.ofList text, rest)
  | s =>
    let text := s.takeWhile isBareKeyChar
    guard (!text.isEmpty)
    return (String.ofList text, s.dropWhile isBareKeyChar)

/-- The bound on the parts of a key and on the nesting of values. -/
def depthLimit : Nat := 80

/-- The parts of a key, at most so many, divided by points, with the blanks around each. -/
def keyParts : Nat → Reader (List String)
  | 0, _ => none
  | limit + 1, s => do
    let (part, rest) ← simpleKey (skipBlanks s)
    match skipBlanks rest with
    | '.' :: rest =>
      let (parts, rest) ← keyParts limit rest
      return (part :: parts, rest)
    | rest => return ([part], rest)

/-- A key: the parts that lead to a table, and the name in it. -/
def key : Reader (List String × String) := fun s => do
  let (parts, rest) ← keyParts (depthLimit - 1) s
  let name ← parts.getLast?
  return ((parts.dropLast, name), rest)

end StackVm.Toml
