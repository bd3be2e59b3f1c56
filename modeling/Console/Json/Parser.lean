import Console.Json.Value

/-! # Reading JSON text

    `Json.parse?` reads one value with nothing but blanks around it. The reader is
    a descent over the characters. Two calls at most are made before a character is
    taken, so twice the length of the text is fuel enough; the public functions
    supply it.

    - Containers nest at most `nesting` deep.
    - A name that occurs twice keeps its first place and its last value.
    - A number with more digits than 64 bits hold keeps those that fit, and the
      decimal scale is applied in binary64, one rounding a step.
    - Strings hold no raw control and no lone surrogate.
-/

namespace Console

/-! ### Numbers -/

namespace Number

/-- The greatest integer of 64 bits. -/
def maxWord : Nat := 18446744073709551615

/-- The value of a decimal digit. -/
def digitValue (c : Char) : Nat := c.toNat - '0'.toNat

/-- The digits of a whole part, and how many of them were dropped: from the first
    that does not fit 64 bits on, all are. -/
def wholeDigits (significand dropped : Nat) : List Char → Nat × Nat
  | [] => (significand, dropped)
  | c :: rest =>
    if dropped = 0 ∧ significand * 10 + digitValue c ≤ maxWord then
      wholeDigits (significand * 10 + digitValue c) 0 rest
    else wholeDigits significand (dropped + 1) rest

/-- The digits of a fraction appended to a significand, up to the first that does
    not fit 64 bits; each lowers the exponent by one. -/
def fractionDigits (significand : Nat) (exponent : Int) : List Char → Nat × Int
  | [] => (significand, exponent)
  | c :: rest =>
    if significand * 10 + digitValue c ≤ maxWord then
      fractionDigits (significand * 10 + digitValue c) (exponent - 1) rest
    else (significand, exponent)

/-- The power `10^n` as binary64, for `n` up to 308. -/
def powerOfTen (n : Nat) : Binary64 := (Binary64.nearest false (tenTo n) 1).getD .zero

/-- The quotient `x / 10^n`, at most 308 places a step, each step rounded. -/
def scaleDown (x : Binary64) (n : Nat) : Binary64 :=
  if n ≤ 308 then (x.div (powerOfTen n)).getD .zero
  else if x.isZero then x
  else scaleDown ((x.div (powerOfTen 308)).getD .zero) (n - 308)
termination_by n

/-- The product `significand · 10^exponent` by scaling in binary64; nothing beyond its range. -/
def scaled? (significand : Nat) (exponent : Int) : Option Binary64 :=
  let x := Binary64.ofInt significand
  if exponent < 0 then some (scaleDown x exponent.natAbs)
  else if exponent ≤ 308 then
    match x.mul (powerOfTen exponent.toNat) with
    | .finite y => some y
    | _ => none
  else if x.isZero then some x
  else none

/-- The number with the given parts: whole digits, fraction digits and exponent.
    Without the last two it is an integer where that fits. -/
def ofParts? (negative : Bool) (whole : List Char) (fraction : Option (List Char))
    (exponent : Option Int) : Option Number :=
  let (significand, dropped) := wholeDigits 0 0 whole
  let signed (x : Binary64) : Number := .real (if negative then x.neg else x)
  match fraction, exponent with
  | none, none =>
    -- more digits than 64 bits hold: no longer an integer
    if dropped ≠ 0 then (scaled? significand dropped).map signed
    else
      let value : Int := if negative then -(significand : Int) else significand
      if h : -9223372036854775808 ≤ value ∧ value < 18446744073709551616 then
        -- the integers have no negative zero
        if negative ∧ significand = 0 then some (signed .zero) else some (.integer value h)
      else some (signed (Binary64.ofInt significand))
  | fraction, exponent =>
    let (significand, scale) := fractionDigits significand dropped (fraction.getD [])
    (scaled? significand (scale + exponent.getD 0)).map signed

/-- The natural number that decimal digits spell. -/
def ofDigits (digits : List Char) : Nat := digits.foldl (fun n c => n * 10 + digitValue c) 0

/-- The exponent part of a number, if one begins here: `e`, a sign, digits. -/
def exponent? : List Char → Option (Option Int × List Char)
  | c :: rest =>
    if c == 'e' || c == 'E' then
      let (negative, rest) := match rest with
        | '+' :: rest => (false, rest)
        | '-' :: rest => (true, rest)
        | rest => (false, rest)
      let digits := rest.takeWhile Char.isDigit
      if digits.isEmpty then none
      else
        let n : Int := ofDigits digits
        some (some (if negative then -n else n), rest.dropWhile Char.isDigit)
    else some (none, c :: rest)
  | [] => some (none, [])

/-- The fraction of a number, if one begins here: a point and at least one digit. -/
def fraction? : List Char → Option (Option (List Char) × List Char)
  | '.' :: rest =>
    let digits := rest.takeWhile Char.isDigit
    if digits.isEmpty then none else some (some digits, rest.dropWhile Char.isDigit)
  | rest => some (none, rest)

/-- Reads a number. The whole part has no leading zero. -/
def read? (text : List Char) : Option (Number × List Char) := do
  let (negative, text) := match text with
    | '-' :: rest => (true, rest)
    | rest => (false, rest)
  let whole := text.takeWhile Char.isDigit
  let rest := text.dropWhile Char.isDigit
  if whole.isEmpty || (whole.head? == some '0' && whole.length != 1) then none
  else
    let (fraction, rest) ← fraction? rest
    let (exponent, rest) ← exponent? rest
    let value ← ofParts? negative whole fraction exponent
    return (value, rest)

end Number

namespace Json

/-! ### Strings -/

/-- The value of a hexadecimal digit. -/
def hexValue? (c : Char) : Option Nat :=
  if '0' ≤ c ∧ c ≤ '9' then some (c.toNat - '0'.toNat)
  else if 'a' ≤ c ∧ c ≤ 'f' then some (c.toNat - 'a'.toNat + 10)
  else if 'A' ≤ c ∧ c ≤ 'F' then some (c.toNat - 'A'.toNat + 10)
  else none

/-- The code unit that four hexadecimal digits spell. -/
def codeUnit? (a b c d : Char) : Option Nat := do
  return (((← hexValue? a) * 16 + (← hexValue? b)) * 16 + (← hexValue? c)) * 16 + (← hexValue? d)

/-- The character after a backslash, other than `u`. -/
def shortEscape? : Char → Option Char
  | '"' => some '"'
  | '\\' => some '\\'
  | '/' => some '/'
  | 'b' => some '\x08'
  | 'f' => some '\x0c'
  | 'n' => some '\n'
  | 'r' => some '\r'
  | 't' => some '\t'
  | _ => none

/-- The character of a surrogate pair. -/
def ofSurrogates (high low : Nat) : Char :=
  Char.ofNat (0x10000 + (high - 0xD800) * 0x400 + (low - 0xDC00))

/-- The rest of a string after its opening quote; `seen` holds what came before, last
    character first. -/
def stringBody? (seen : List Char) : List Char → Option (String × List Char)
  | [] => none
  | '"' :: rest => some (String.ofList seen.reverse, rest)
  | '\\' :: 'u' :: a :: b :: c :: d :: rest =>
    match codeUnit? a b c d with
    | none => none
    | some unit =>
      -- the first half of a pair needs its second half at once
      if 0xD800 ≤ unit ∧ unit < 0xDC00 then
        match rest with
        | '\\' :: 'u' :: e :: f :: g :: h :: rest =>
          match codeUnit? e f g h with
          | none => none
          | some low =>
            if 0xDC00 ≤ low ∧ low < 0xE000 then
              stringBody? (ofSurrogates unit low :: seen) rest
            else none
        | _ => none
      else if 0xDC00 ≤ unit ∧ unit < 0xE000 then none
      else stringBody? (Char.ofNat unit :: seen) rest
  | '\\' :: c :: rest =>
    match shortEscape? c with
    | some c => stringBody? (c :: seen) rest
    | none => none
  | c :: rest => if c.toNat < 0x20 then none else stringBody? (c :: seen) rest

/-! ### Values -/

/-- A character that may stand between the parts of JSON text. -/
def isSpace (c : Char) : Bool := c == ' ' || c == '\t' || c == '\n' || c == '\r'

/-- The text without leading blanks. -/
def skipSpace (text : List Char) : List Char := text.dropWhile isSpace

/-- The word `true`, `false` or `null`. -/
def word? : List Char → Option (Json × List Char)
  | 't' :: 'r' :: 'u' :: 'e' :: rest => some (.bool true, rest)
  | 'f' :: 'a' :: 'l' :: 's' :: 'e' :: rest => some (.bool false, rest)
  | 'n' :: 'u' :: 'l' :: 'l' :: rest => some (.null, rest)
  | _ => none

mutual

/-- Reads a value in which containers nest at most `depth` deep. -/
def readValue? (depth : Nat) : (fuel : Nat) → List Char → Option (Json × List Char)
  | 0, _ => none
  | fuel + 1, text =>
    match skipSpace text with
    | '"' :: rest => (stringBody? [] rest).map fun (s, rest) => (.string s, rest)
    | '[' :: rest =>
      match depth with
      | 0 => none
      | depth + 1 =>
        match skipSpace rest with
        | ']' :: rest => some (.array [], rest)
        | rest => (readItems? depth fuel rest).map fun (items, rest) => (.array items, rest)
    | '\x7b' :: rest =>
      match depth with
      | 0 => none
      | depth + 1 =>
        match skipSpace rest with
        | '\x7d' :: rest => some (.object [], rest)
        | rest =>
          (readMembers? depth fuel rest).map fun (members, rest) => (ofMembers members, rest)
    | c :: rest =>
      if c == '-' || c.isDigit then
        (Number.read? (c :: rest)).map fun (n, rest) => (.number n, rest)
      else word? (c :: rest)
    | [] => none

/-- Reads the items of an array up to its closing bracket, at least one. -/
def readItems? (depth : Nat) : (fuel : Nat) → List Char → Option (List Json × List Char)
  | 0, _ => none
  | fuel + 1, text =>
    match readValue? depth fuel text with
    | none => none
    | some (item, rest) =>
      match skipSpace rest with
      | ',' :: rest => (readItems? depth fuel rest).map fun (items, rest) => (item :: items, rest)
      | ']' :: rest => some ([item], rest)
      | _ => none

/-- Reads the members of an object up to its closing brace, at least one, with
    repeated names kept. -/
def readMembers? (depth : Nat) :
    (fuel : Nat) → List Char → Option (List (String × Json) × List Char)
  | 0, _ => none
  | fuel + 1, text =>
    match skipSpace text with
    | '"' :: rest =>
      match stringBody? [] rest with
      | none => none
      | some (name, rest) =>
        match skipSpace rest with
        | ':' :: rest =>
          match readValue? depth fuel rest with
          | none => none
          | some (value, rest) =>
            match skipSpace rest with
            | ',' :: rest =>
              (readMembers? depth fuel rest).map fun (members, rest) =>
                ((name, value) :: members, rest)
            | '\x7d' :: rest => some ([(name, value)], rest)
            | _ => none
        | _ => none
    | _ => none

end

/-! ### Whole texts -/

/-- How deep containers may nest in a text. -/
def nesting : Nat := 127

/-- Reads a value from the front of a text. -/
def readLeading? (depth : Nat) (text : List Char) : Option (Json × List Char) :=
  readValue? depth (2 * text.length + 2) text

/-- Reads a text that is one value, with containers at most `depth` deep. -/
def parseWithin? (depth : Nat) (text : String) : Option Json := do
  let (value, rest) ← readLeading? depth text.toList
  if (skipSpace rest).isEmpty then some value else none

/-- Reads a text that is one value. -/
def parse? (text : String) : Option Json := parseWithin? nesting text

/-- Reads a text that is one object, as the list of its members with repeated names
    kept. -/
def parseMembers? (text : String) : Option (List (String × Json)) := do
  match skipSpace text.toList with
  | '\x7b' :: rest =>
    let (members, rest) ← match skipSpace rest with
      | '\x7d' :: rest => some ([], rest)
      | rest => readMembers? (nesting - 1) (2 * rest.length + 2) rest
    if (skipSpace rest).isEmpty then some members else none
  | _ => none

end Json

end Console
