/-! # Texts and keys in TOML

    Readers take a list of characters and give back what they read with the characters
    after it, or nothing where the text is not well formed.

    A text is basic, between double quotes and with escapes, or literal, between single
    quotes; tripled quotes let it run over several lines, whose breaks are kept as they
    are written. A key is a bare name or a text of one line, and keys joined by points
    name members of members.
-/

namespace Console.Toml

/-! ### Characters -/

/-- A space or a tab. -/
def isBlank (c : Char) : Bool := c == ' ' || c == '\t'

/-- A control character, the tab aside; none may stand in a text or a comment. -/
def isControl (c : Char) : Bool := (c.toNat < 0x20 && c != '\t') || c.toNat == 0x7F

/-- The text without a byte order mark in front. -/
def skipMark : List Char → List Char
  | '\ufeff' :: rest => rest
  | text => text

/-- The characters after spaces and tabs. -/
def skipBlanks (text : List Char) : List Char := text.dropWhile isBlank

/-- The characters after spaces, line breaks and comments. Nothing if a comment holds a
    control character. -/
def skipGap (comment : Bool) : List Char → Option (List Char)
  | [] => some []
  | '\n' :: rest => skipGap false rest
  | '\r' :: '\n' :: rest => skipGap false rest
  | c :: rest =>
    if comment then if isControl c then none else skipGap true rest
    else if c == '#' then skipGap true rest
    else if isBlank c then skipGap false rest
    else some (c :: rest)

/-- The characters after the end of a line, or the end of the text. -/
def endOfLine? (text : List Char) : Option (List Char) :=
  match skipBlanks text with
  | [] => some []
  | '\n' :: rest => some rest
  | '\r' :: '\n' :: rest => some rest
  | '#' :: rest =>
    match rest.dropWhile (fun c => !isControl c) with
    | [] => some []
    | '\n' :: rest => some rest
    | '\r' :: '\n' :: rest => some rest
    | _ => none
  | _ => none

/-! ### Escapes -/

/-- The value of a hexadecimal digit. -/
def hexValue? (c : Char) : Option Nat :=
  if c.isDigit then some (c.toNat - '0'.toNat)
  else if 'a' ≤ c ∧ c ≤ 'f' then some (c.toNat - 'a'.toNat + 10)
  else if 'A' ≤ c ∧ c ≤ 'F' then some (c.toNat - 'A'.toNat + 10)
  else none

/-- The character that hexadecimal digits name; surrogates name none. -/
def codePoint? (digits : List Char) : Option Char := do
  let values ← digits.mapM hexValue?
  let n := values.foldl (fun n v => n * 16 + v) 0
  if n.isValidChar then some (Char.ofNat n) else none

/-- The character that a letter after a backslash stands for. -/
def shortEscape? : Char → Option Char
  | 'b' => some '\x08'
  | 't' => some '\t'
  | 'n' => some '\n'
  | 'f' => some '\x0c'
  | 'r' => some '\r'
  | 'e' => some '\x1b'
  | '"' => some '"'
  | '\\' => some '\\'
  | _ => none

/-- How many hexadecimal digits follow a letter after a backslash. -/
def escapeDigits? : Char → Option Nat
  | 'x' => some 2
  | 'u' => some 4
  | 'U' => some 8
  | _ => none

/-- The character of an escape after its backslash, and how many characters it takes. -/
def escape? : List Char → Option (Char × Nat)
  | [] => none
  | c :: rest =>
    match escapeDigits? c with
    | none => (shortEscape? c).map fun value => (value, 1)
    | some count =>
      if rest.length < count then none
      else (codePoint? (rest.take count)).map fun value => (value, count + 1)

/-! ### Texts of one line -/

/-- The rest of a basic text. `seen` is what was read, last character first, and `skip`
    is how many characters belong to an escape read before. -/
def basicLine? (seen : List Char) (skip : Nat) : List Char → Option (String × List Char)
  | [] => none
  | c :: rest =>
    match skip with
    | skip + 1 => basicLine? seen skip rest
    | 0 =>
      if c == '"' then some (String.ofList seen.reverse, rest)
      else if c == '\\' then
        match escape? rest with
        | none => none
        | some (value, length) => basicLine? (value :: seen) length rest
      else if isControl c then none
      else basicLine? (c :: seen) 0 rest

/-- The rest of a literal text of one line. -/
def literalLine? (text : List Char) : Option (String × List Char) :=
  let body := text.takeWhile fun c => c != '\'' && !isControl c
  match text.dropWhile fun c => c != '\'' && !isControl c with
  | '\'' :: rest => some (String.ofList body, rest)
  | _ => none

/-! ### Texts of several lines -/

/-- A run of a character: how often it occurs, at most `limit` times, and what follows. -/
def run (c : Char) : (limit : Nat) → List Char → Nat × List Char
  | 0, text => (0, text)
  | limit + 1, first :: rest =>
    if first = c then
      let (count, rest) := run c limit rest
      (count + 1, rest)
    else (0, first :: rest)
  | _, [] => (0, [])

/-- Whether only blanks stand before the next line break. -/
def endsLine (text : List Char) : Bool :=
  match skipBlanks text with
  | '\n' :: _ => true
  | '\r' :: '\n' :: _ => true
  | _ => false

/-- The end of a text of several lines, if it is here: three quotes, before which one or
    two more belong to the text. -/
def closing? (quote : Char) (text : List Char) : Option (Nat × List Char) :=
  let (count, rest) := run quote 5 text
  if 3 ≤ count then some (count - 3, rest) else none

/-- The rest of a basic text of several lines. After a backslash at the end of a line,
    `joining` skips all blanks and line breaks. -/
def basicLines? (seen : List Char) (skip : Nat) (joining : Bool) :
    List Char → Option (String × List Char)
  | [] => none
  | c :: rest =>
    match skip with
    | skip + 1 => basicLines? seen skip joining rest
    | 0 =>
      match closing? '"' (c :: rest) with
      | some (quotes, after) =>
        some (String.ofList (List.replicate quotes '"' ++ seen).reverse, after)
      | none =>
        if joining && (isBlank c || c == '\n') then basicLines? seen 0 true rest
        else if c == '\r' then
          if rest.head? == some '\n' then
            basicLines? (if joining then seen else '\r' :: seen) 0 joining rest
          else none
        else if c == '\\' then
          if endsLine rest then basicLines? seen 0 true rest
          else
            match escape? rest with
            | none => none
            | some (value, length) => basicLines? (value :: seen) length false rest
        else if c == '\n' then basicLines? ('\n' :: seen) 0 false rest
        else if isControl c then none
        else basicLines? (c :: seen) 0 false rest

/-- The rest of a literal text of several lines. -/
def literalLines? (seen : List Char) : List Char → Option (String × List Char)
  | [] => none
  | c :: rest =>
    match closing? '\'' (c :: rest) with
    | some (quotes, after) =>
      some (String.ofList (List.replicate quotes '\'' ++ seen).reverse, after)
    | none =>
      if c == '\r' then
        if rest.head? == some '\n' then literalLines? ('\r' :: seen) rest else none
      else if c == '\n' then literalLines? ('\n' :: seen) rest
      else if isControl c then none
      else literalLines? (c :: seen) rest

/-- The characters after a line break, if there is one. -/
def skipBreak : List Char → List Char
  | '\n' :: rest => rest
  | '\r' :: '\n' :: rest => rest
  | text => text

/-- Reads a text of any kind. -/
def string? : List Char → Option (String × List Char)
  | '"' :: '"' :: '"' :: rest => basicLines? [] 0 false (skipBreak rest)
  | '\'' :: '\'' :: '\'' :: rest => literalLines? [] (skipBreak rest)
  | '"' :: rest => basicLine? [] 0 rest
  | '\'' :: rest => literalLine? rest
  | _ => none

/-! ### Keys -/

/-- A character of a bare key. -/
def isBareChar (c : Char) : Bool := c.isAlphanum || c == '_' || c == '-'

/-- Reads one key. -/
def simpleKey? : List Char → Option (String × List Char)
  | '"' :: rest => basicLine? [] 0 rest
  | '\'' :: rest => literalLine? rest
  | text =>
    let name := text.takeWhile isBareChar
    if name.isEmpty then none else some (String.ofList name, text.dropWhile isBareChar)

/-- Reads keys joined by points, at most as many as given. -/
def keyPath? : (limit : Nat) → List Char → Option (List String × List Char)
  | 0, _ => none
  | limit + 1, text => do
    let (key, rest) ← simpleKey? text
    match skipBlanks rest with
    | '.' :: rest =>
      let (path, rest) ← keyPath? limit (skipBlanks rest)
      return (key :: path, rest)
    | rest => return ([key], rest)

/-- How many keys a path may have. -/
def longestPath : Nat := 80

/-- Reads a key path. -/
def path? (text : List Char) : Option (List String × List Char) := keyPath? longestPath text

end Console.Toml
