import PluginSurface.Toml.Lexeme

/-!
Reading TOML documents. A document is a list of headers and entries, of which
`Document.entries?` makes a tree.
-/

namespace PluginSurface.Toml

/-- How many arrays and inline tables may stand in each other, and how many
segments a key may have. -/
def nestingLimit : Nat :=
  79

/-! ## Values -/

mutual

/-- Reads a value. The first argument bounds the work and is never the cause of a
refusal if it exceeds twice the input's length; the second one tells how many
containers may be opened. -/
def value? (bound depth : Nat) (input : Input) : Option (Toml × Input) :=
  match bound with
  | 0 => none
  | bound + 1 =>
      match input with
      | [] => none
      | '[' :: rest =>
          match depth with
          | 0 => none
          | depth + 1 => do
              let (items, rest) ← items? bound depth rest
              some (.array items, rest)
      | '{' :: rest =>
          match depth with
          | 0 => none
          | depth + 1 => do
              let (entries, rest) ←
                match skipBlanks rest with
                | '}' :: rest => some ([], rest)
                | rest => entries? bound depth [] rest
              some (.table .inline entries, rest)
      | char :: rest =>
          if char = '"' ∨ char = '\x27' then do
            let (text, rest) ← string? (char :: rest)
            some (.string text, rest)
          else word? (char :: rest)

/-- Reads the items of an array and its closing bracket. A comma may stand behind
the last item. -/
def items? (bound depth : Nat) (input : Input) :
    Option (List Toml × Input) :=
  match bound with
  | 0 => none
  | bound + 1 => do
      match ← skipFiller false input with
      | ']' :: rest => some ([], rest)
      | input => do
          let (item, rest) ← value? bound depth input
          match ← skipFiller false rest with
          | ',' :: rest => do
              let (items, rest) ← items? bound depth rest
              some (item :: items, rest)
          | ']' :: rest => some ([item], rest)
          | _ => none

/-- Reads the entries of an inline table and its closing brace, behind the
entries that have been read. -/
def entries? (bound depth : Nat) (read : Entries) (input : Input) :
    Option (Entries × Input) :=
  match bound with
  | 0 => none
  | bound + 1 => do
      let (key, rest) ← key? nestingLimit input
      match rest with
      | '=' :: rest => do
          let (value, rest) ← value? bound depth (skipBlanks rest)
          let read ← read.insert value key
          match skipBlanks rest with
          | ',' :: rest => entries? bound depth read rest
          | '}' :: rest => some (read, rest)
          | _ => none
      | _ => none

end

/-! ## Documents -/

/-- A line of a document. -/
inductive Statement where
  /-- The header of a table. -/
  | table (path : List String)
  /-- The header of the next table in an array of tables. -/
  | element (path : List String)
  | entry (key : List String) (value : Toml)

namespace Statement

/-- Reads a header or an entry up to the end of its line. -/
def read? (input : Input) : Option (Statement × Input) :=
  match input with
  | '[' :: '[' :: rest => do
      let (path, rest) ← key? nestingLimit rest
      match rest with
      | ']' :: ']' :: rest => some (element path, ← endLine? rest)
      | _ => none
  | '[' :: rest => do
      let (path, rest) ← key? nestingLimit rest
      match rest with
      | ']' :: rest => some (table path, ← endLine? rest)
      | _ => none
  | input => do
      let (key, rest) ← key? nestingLimit input
      match rest with
      | '=' :: rest => do
          let (value, rest) ←
            value? (2 * rest.length + 2) nestingLimit (skipBlanks rest)
          some (entry key value, ← endLine? rest)
      | _ => none

/-- Reads all statements. The first argument bounds their number. -/
def readAll? : Nat → Input → Option (List Statement)
  | 0, _ => none
  | bound + 1, input => do
      match ← skipFiller false input with
      | [] => some []
      | input => do
          let (statement, rest) ← read? input
          let statements ← readAll? bound rest
          some (statement :: statements)

end Statement

/-- Adds a statement to the tree of those before it. The path is that of the
header it stands under. -/
def addStatement (state : List String × Entries) (statement : Statement) :
    Option (List String × Entries) :=
  let (header, root) := state
  let parent (path : List String) := path.dropLast
  let last (path : List String) := path.getLastD ""
  match statement with
  | .table path => do
      let root ← root.under (Entries.openTable (last path)) (parent path)
      some (path, root)
  | .element path => do
      let root ← root.under (Entries.openElement (last path)) (parent path)
      some (path, root)
  | .entry key value => do
      let root ← root.under (Entries.insert value key) header
      some (header, root)

/-- The entries at the top of a document. -/
def ofText? (text : String) : Option Entries := do
  let input :=
    match text.toList with
    | '\ufeff' :: rest => rest
    | chars => chars
  let statements ← Statement.readAll? (input.length + 1) input
  let (_, root) ← statements.foldlM addStatement ([], [])
  some root

end PluginSurface.Toml
