import Console.Toml.Scalar
import Console.Toml.Text

/-! # TOML documents

    A document is a sequence of statements: assignments to key paths, headers that open a
    table, and headers that open a further table of a list. `read?` carries them out on a
    tree that remembers how each table came to be, because what may be added to a table
    depends on it:

    - a table that a header has opened may not be opened again,
    - a table made by a dotted key may only be extended by further dotted keys, or by a
      header for a table inside it,
    - dotted keys may extend any table that no header has opened,
    - what stands in a value is complete.
-/

namespace Console.Toml

/-! ### Trees -/

/-- How a table came to be. -/
inductive Origin where
  /-- It was named on the way to another table. -/
  | implicit
  /-- It was named on the way to an assigned key. -/
  | dotted
  | header
  deriving DecidableEq

/-- A part of a document. -/
inductive Node where
  | value (value : Setting)
  | table (origin : Origin) (members : List (String × Node))
  | tables (items : List (List (String × Node)))

/-- The members of a table. -/
abbrev Members : Type := List (String × Node)

mutual

/-- The value of a part. -/
def Node.toSetting : Node → Setting
  | .value v => v
  | .table _ members => .table (membersToSettings members)
  | .tables items => .list (itemsToSettings items)

/-- The values of the members of a table. -/
def membersToSettings : List (String × Node) → List (String × Setting)
  | [] => []
  | (name, node) :: rest => (name, node.toSetting) :: membersToSettings rest

/-- The values of the tables of a list. -/
def itemsToSettings : List (List (String × Node)) → List Setting
  | [] => []
  | members :: rest => .table (membersToSettings members) :: itemsToSettings rest

end

/-- Changes the table that a path leads to, by `change` on its origin and members. Tables
    that are missing on the way are made with the origin `new`; in a list of tables the
    last one is meant. -/
def changeTable (new : Origin) (change : Origin → Members → Option Members) :
    List String → Origin → Members → Option Members
  | [], origin, members => change origin members
  | key :: rest, _, members =>
    match lookupEntry key members with
    | none => do
      let inner ← changeTable new change rest new []
      return insertEntry key (.table new inner) members
    | some (.value _) => none
    | some (.table origin inner) =>
      -- a table that has a header is closed to dotted keys from outside
      if new = .dotted ∧ origin = .header then none
      else do
        let inner ← changeTable new change rest origin inner
        return insertEntry key (.table origin inner) members
    | some (.tables items) =>
      match items.getLast? with
      | none => none
      | some last => do
        let last ← changeTable new change rest .header last
        return insertEntry key (.tables (items.dropLast ++ [last])) members

/-- A path without its last key, and that key. -/
def splitLast : List String → Option (List String × String)
  | [] => none
  | path => path.getLast?.map fun key => (path.dropLast, key)

/-- Assigns a value to a key path within a table. Through points no table may be reached
    that a header has opened. -/
def assign (path : List String) (value : Setting) (members : Members) : Option Members := do
  let (tables, key) ← splitLast path
  let put (origin : Origin) (members : Members) : Option Members :=
    if (!tables.isEmpty && origin == .header) || (lookupEntry key members).isSome then none
    else some (insertEntry key (.value value) members)
  changeTable .dotted put tables .header members

/-- Opens the table of a header. -/
def openTable (path : List String) (members : Members) : Option Members := do
  let (tables, key) ← splitLast path
  let put (_ : Origin) (members : Members) : Option Members :=
    match lookupEntry key members with
    | none => some (insertEntry key (.table .header []) members)
    -- a table that was only passed through may still get its header
    | some (.table .implicit inner) => some (insertEntry key (.table .header inner) members)
    | some _ => none
  changeTable .implicit put tables .header members

/-- Opens a further table of a list. -/
def openItem (path : List String) (members : Members) : Option Members := do
  let (tables, key) ← splitLast path
  let put (_ : Origin) (members : Members) : Option Members :=
    match lookupEntry key members with
    | none => some (insertEntry key (.tables [[]]) members)
    | some (.tables items) => some (insertEntry key (.tables (items ++ [[]])) members)
    | some _ => none
  changeTable .implicit put tables .header members

/-! ### Values -/

mutual

/-- Reads a value in which lists and tables nest at most `depth` deep. `fuel` bounds the
    number of calls below. -/
def readValue? (depth : Nat) : (fuel : Nat) → List Char → Option (Setting × List Char)
  | 0, _ => none
  | fuel + 1, text =>
    match text with
    | '[' :: rest =>
      match depth with
      | 0 => none
      | depth + 1 =>
        (readItems? depth fuel rest).map fun (items, rest) => (.list items, rest)
    | '\x7b' :: rest =>
      match depth with
      | 0 => none
      | depth + 1 =>
        (readMembers? depth fuel [] rest).map fun (members, rest) =>
          (.table (membersToSettings members), rest)
    | '"' :: _ | '\'' :: _ => (string? text).map fun (value, rest) => (.text value, rest)
    | text => scalar? text

/-- Reads the items of a list up to its closing bracket. -/
def readItems? (depth : Nat) : (fuel : Nat) → List Char → Option (List Setting × List Char)
  | 0, _ => none
  | fuel + 1, text => do
    match ← skipGap false text with
    | ']' :: rest => return ([], rest)
    | text =>
      let (item, rest) ← readValue? depth fuel text
      match ← skipGap false rest with
      | ']' :: rest => return ([item], rest)
      | ',' :: rest =>
        let (items, rest) ← readItems? depth fuel rest
        return (item :: items, rest)
      | _ => none

/-- Reads the members of an inline table up to its closing brace. -/
def readMembers? (depth : Nat) :
    (fuel : Nat) → Members → List Char → Option (Members × List Char)
  | 0, _, _ => none
  | fuel + 1, members, text => do
    match ← skipGap false text with
    | '\x7d' :: rest => return (members, rest)
    | text =>
      let (path, rest) ← path? text
      match skipBlanks rest with
      | '=' :: rest =>
        let (value, rest) ← readValue? depth fuel (skipBlanks rest)
        let members ← assign path value members
        match ← skipGap false rest with
        | '\x7d' :: rest => return (members, rest)
        | ',' :: rest => readMembers? depth fuel members rest
        | _ => none
      | _ => none

end

/-- How deep lists and tables may nest in a value. -/
def nesting : Nat := 80

/-! ### Statements -/

/-- A statement of a document. -/
inductive Statement where
  | assignment (path : List String) (value : Setting)
  | openTable (path : List String)
  | openItem (path : List String)

/-- Reads a header after its opening brackets, up to the end of its line. -/
def readHeader? (closing : List Char) (text : List Char) :
    Option (List String × List Char) := do
  let (path, rest) ← path? (skipBlanks text)
  let rest := skipBlanks rest
  if closing.isPrefixOf rest then
    return (path, ← endOfLine? (rest.drop closing.length))
  else none

/-- Reads a statement up to the end of its line. -/
def readStatement? (text : List Char) : Option (Statement × List Char) :=
  match text with
  | '[' :: '[' :: rest => (readHeader? [']', ']'] rest).map fun (path, rest) =>
      (.openItem path, rest)
  | '[' :: rest => (readHeader? [']'] rest).map fun (path, rest) => (.openTable path, rest)
  | text => do
    let (path, rest) ← path? text
    match skipBlanks rest with
    | '=' :: rest =>
      let (value, rest) ← readValue? nesting text.length (skipBlanks rest)
      return (.assignment path value, ← endOfLine? rest)
    | _ => none

/-- Reads statements up to the end of the text, at most as many as given. -/
def readStatements? : (fuel : Nat) → List Char → Option (List Statement)
  | 0, _ => none
  | fuel + 1, text => do
    match ← skipGap false text with
    | [] => return []
    | text =>
      let (statement, rest) ← readStatement? text
      return statement :: (← readStatements? fuel rest)

/-- Carries out statements. `current` is the path of the table that is open. -/
def perform (current : List String) (members : Members) : List Statement → Option Members
  | [] => some members
  | .assignment path value :: rest => do
    let put (_ : Origin) (members : Members) : Option Members := assign path value members
    perform current (← changeTable .implicit put current .header members) rest
  | .openTable path :: rest => do perform path (← openTable path members) rest
  | .openItem path :: rest => do perform path (← openItem path members) rest

/-- Reads a document: its members, if it is well formed. -/
def read? (text : String) : Option (List (String × Setting)) := do
  let statements ← readStatements? (text.length + 1) (skipMark text.toList)
  return membersToSettings (← perform [] [] statements)

end Console.Toml
