import Console.Settings.Value

/-! # Plain scalars in TOML

    A scalar that is not a text is one word: a switch, an integer in one of four bases, a
    real number, or a date and a time. Digits may be grouped by single underscores.

    Settings have no dates, so a date is kept as its text in normal form.
-/

namespace Console.Toml

/-! ### Digits -/

/-- The digits of a word without its underscores, each of which stands between two digits.
    Nothing if anything else is in it. -/
def ungroup? (isDigit : Char → Bool) (word : List Char) : Option (List Char) :=
  match word with
  | [] => none
  | c :: rest => if isDigit c then (after rest).map (c :: ·) else none
where
  /-- Goes on after a digit. -/
  after : List Char → Option (List Char)
    | [] => some []
    | '_' :: c :: rest => if isDigit c then (after rest).map (c :: ·) else none
    | c :: rest => if isDigit c then (after rest).map (c :: ·) else none

/-- The value of a digit in any base up to sixteen. -/
def digitValue (c : Char) : Nat :=
  if c.isDigit then c.toNat - '0'.toNat else c.toLower.toNat - 'a'.toNat + 10

/-- The number that digits of a base spell. -/
def ofDigits (base : Nat) (digits : List Char) : Nat :=
  digits.foldl (fun n c => n * base + digitValue c) 0

/-- A sign, and what follows it. -/
def sign : List Char → Bool × List Char
  | '-' :: rest => (true, rest)
  | '+' :: rest => (false, rest)
  | rest => (false, rest)

/-- The digits of a whole decimal number, which has no leading zero. -/
def whole? (word : List Char) : Option (List Char) :=
  (ungroup? Char.isDigit word).filter fun digits => digits.length = 1 || digits.head? != some '0'

/-! ### Numbers -/

/-- An integer that fits 64 bits with its sign. -/
def inRange? (value : Int) : Option Setting :=
  if -9223372036854775808 ≤ value ∧ value < 9223372036854775808 then some (.integer value) else none

/-- A digit of base eight. -/
def isOctal (c : Char) : Bool := '0' ≤ c && c ≤ '7'

/-- A digit of base two. -/
def isBinary (c : Char) : Bool := c == '0' || c == '1'

/-- A digit of base sixteen. -/
def isHex (c : Char) : Bool :=
  c.isDigit || ('a' ≤ c && c ≤ 'f') || ('A' ≤ c && c ≤ 'F')

/-- Reads an integer. -/
def integer? : List Char → Option Setting
  | '0' :: 'x' :: digits => (ungroup? isHex digits).bind fun d => inRange? (ofDigits 16 d)
  | '0' :: 'o' :: digits => (ungroup? isOctal digits).bind fun d => inRange? (ofDigits 8 d)
  | '0' :: 'b' :: digits => (ungroup? isBinary digits).bind fun d => inRange? (ofDigits 2 d)
  | word => do
    let (negative, digits) := sign word
    let n : Int := ofDigits 10 (← whole? digits)
    inRange? (if negative then -n else n)

/-- The real number `digits · 10^exponent`, rounded to nearest. Nothing beyond the range;
    far below the range it is zero. -/
def scaled? (negative : Bool) (digits : List Char) (exponent : Int) : Option Setting :=
  let n := ofDigits 10 digits
  let magnitude := exponent + digits.length
  if n = 0 ∨ magnitude < -400 then some (.real (.finite (Binary64.signedZero negative)))
  else if 400 < magnitude - (digits.takeWhile (· == '0')).length then none
  else
    match Binary64.ofDecimal negative n exponent with
    | .finite x => some (.real (.finite x))
    | _ => none

/-- The exponent after its letter. -/
def exponent? (word : List Char) : Option Int := do
  let (negative, digits) := sign word
  let n : Int := ofDigits 10 (← ungroup? Char.isDigit digits)
  return if negative then -n else n

/-- Whether a character sets off an exponent. -/
def isExponentMark (c : Char) : Bool := c == 'e' || c == 'E'

/-- Reads a real number with a fraction or an exponent. -/
def decimal? (word : List Char) : Option Setting := do
  let (negative, word) := sign word
  let mantissa := word.takeWhile fun c => !isExponentMark c
  let exponent ← match word.dropWhile fun c => !isExponentMark c with
    | [] => some 0
    | _ :: digits => exponent? digits
  let whole ← whole? (mantissa.takeWhile (· != '.'))
  match mantissa.dropWhile (· != '.') with
  | [] => if mantissa.length = word.length then none else scaled? negative whole exponent
  | _ :: digits =>
    let fraction ← ungroup? Char.isDigit digits
    scaled? negative (whole ++ fraction) (exponent - fraction.length)

/-- Reads a word for a number. -/
def special? (word : List Char) : Option Setting :=
  let (negative, word) := sign word
  if word = ['i', 'n', 'f'] then some (.real (.infinite negative))
  else if word = ['n', 'a', 'n'] then some (.real .nan)
  else none

/-! ### Dates and times -/

/-- A number of exactly `count` digits, at most `greatest`, and what follows it. -/
def field? (count least greatest : Nat) (text : List Char) : Option (Nat × List Char) :=
  let digits := text.take count
  let n := ofDigits 10 digits
  if digits.length = count && digits.all Char.isDigit && least ≤ n && n ≤ greatest then
    some (n, text.drop count)
  else none

/-- The number of days of a month. -/
def daysOfMonth (year month : Nat) : Nat :=
  if month = 2 then
    if year % 4 = 0 ∧ (year % 100 ≠ 0 ∨ year % 400 = 0) then 29 else 28
  else if [4, 6, 9, 11].contains month then 30
  else 31

/-- A number of at least two digits. -/
def twoDigits (n : Nat) : String := if n < 10 then "0" ++ toString n else toString n

/-- Reads a date and writes it again. -/
def date? (text : List Char) : Option (String × List Char) := do
  let (year, rest) ← field? 4 0 9999 text
  let '-' :: rest := rest | none
  let (month, rest) ← field? 2 1 12 rest
  let '-' :: rest := rest | none
  let (day, rest) ← field? 2 1 (daysOfMonth year month) rest
  return (String.ofList (text.take 5) ++ twoDigits month ++ "-" ++ twoDigits day, rest)

/-- The fraction of a second in normal form: nine digits at most, without closing zeros
    but the first. -/
def fractionText (digits : List Char) : String :=
  let kept := ((digits.take 9).reverse.dropWhile (· == '0')).reverse
  "." ++ (if kept.isEmpty then "0" else String.ofList kept)

/-- Reads the seconds of a time, if they are given, and writes them again. -/
def seconds? : List Char → Option (String × List Char)
  | ':' :: rest => do
    let (second, rest) ← field? 2 0 60 rest
    match rest with
    | '.' :: rest =>
      let digits := rest.takeWhile Char.isDigit
      if digits.isEmpty then none
      else return (":" ++ twoDigits second ++ fractionText digits, rest.dropWhile Char.isDigit)
    | rest => return (":" ++ twoDigits second, rest)
  | rest => some ("", rest)

/-- Reads a time and writes it again. -/
def time? (text : List Char) : Option (String × List Char) := do
  let (hour, rest) ← field? 2 0 23 text
  let ':' :: rest := rest | none
  let (minute, rest) ← field? 2 0 59 rest
  let (seconds, rest) ← seconds? rest
  return (twoDigits hour ++ ":" ++ twoDigits minute ++ seconds, rest)

/-- Reads the distance from universal time, which ends a word, and writes it again. -/
def offset? : List Char → Option String
  | [] => some ""
  | ['Z'] => some "Z"
  | ['z'] => some "Z"
  | mark :: rest => do
    if mark != '+' && mark != '-' then none
    else
      let (hour, rest) ← field? 2 0 23 rest
      let ':' :: rest := rest | none
      let (minute, rest) ← field? 2 0 59 rest
      let mark := if mark = '-' ∧ hour + minute ≠ 0 then "-" else "+"
      if rest.isEmpty then some (mark ++ twoDigits hour ++ ":" ++ twoDigits minute) else none

/-- Whether a character stands between a date and a time. -/
def isDateMark (c : Char) : Bool := c == 'T' || c == 't' || c == ' '

/-- Reads a date, a time, or both, and keeps it as a text. -/
def moment? (word : List Char) : Option Setting :=
  match date? word with
  | some (date, []) => some (.text date)
  | some (date, mark :: rest) => do
    let (time, rest) ← time? rest
    let offset ← offset? rest
    if isDateMark mark then some (.text (date ++ "T" ++ time ++ offset)) else none
  | none => do
    let (time, rest) ← time? word
    if rest.isEmpty then some (.text time) else none

/-! ### Words -/

/-- Reads a word that is a scalar. -/
def word? (word : List Char) : Option Setting :=
  if word = ['t', 'r', 'u', 'e'] then some (.bool true)
  else if word = ['f', 'a', 'l', 's', 'e'] then some (.bool false)
  else special? word <|> integer? word <|> decimal? word <|> moment? word

/-- A character of a word. -/
def isWordChar (c : Char) : Bool :=
  c.isAlphanum || c == '_' || c == '+' || c == '-' || c == '.' || c == ':'

/-- Splits off the word that a text begins with. A date takes a time after one space along. -/
def splitWord (text : List Char) : List Char × List Char :=
  let word := text.takeWhile isWordChar
  match (date? word).map Prod.snd, text.dropWhile isWordChar with
  | some [], ' ' :: c :: rest =>
    if c.isDigit then
      (word ++ ' ' :: (c :: rest).takeWhile isWordChar, (c :: rest).dropWhile isWordChar)
    else (word, ' ' :: c :: rest)
  | _, rest => (word, rest)

/-- Reads a scalar. -/
def scalar? (text : List Char) : Option (Setting × List Char) :=
  let (word, rest) := splitWord text
  (Toml.word? word).map fun value => (value, rest)

end Console.Toml
