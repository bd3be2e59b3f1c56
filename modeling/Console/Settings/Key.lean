import Console.Settings.Value

/-! # Keys of settings files

    The outermost keys of a settings file may lead into parts: names joined by points, and
    indices in brackets, as in `preview.max_items` or `preview[0]`. Blanks may stand around
    an index. A key that does not have this form is a plain name.
-/

namespace Console.Setting

/-- A character of a name within a key. -/
def isNameChar (c : Char) : Bool := c.isAlphanum || c == '_' || c == '-'

/-- The name that a text begins with, and what follows it. -/
def name? (text : List Char) : Option (String × List Char) :=
  let name := text.takeWhile isNameChar
  if name.isEmpty then none else some (String.ofList name, text.dropWhile isNameChar)

/-- The text without leading spaces and tabs. -/
def skipBlanks (text : List Char) : List Char := text.dropWhile fun c => c == ' ' || c == '\t'

/-- The index after an opening bracket, and what follows the closing one. -/
def index? (text : List Char) : Option (Int × List Char) :=
  let (negative, text) := match skipBlanks text with
    | '-' :: rest => (true, rest)
    | rest => (false, rest)
  let digits := text.takeWhile Char.isDigit
  match digits, skipBlanks (text.dropWhile Char.isDigit) with
  | [], _ => none
  | digits, ']' :: rest =>
    let n := digits.foldl (fun n c => n * 10 + (c.toNat - '0'.toNat)) 0
    if n < 9223372036854775808 then some (if negative then -(n : Int) else n, rest) else none
  | _, _ => none

/-- The steps after the first name of a key, at most as many as given. -/
def furtherSteps? : (fuel : Nat) → List Char → Option (List Step)
  | _, [] => some []
  | 0, _ => none
  | fuel + 1, '.' :: tail => do
    let (name, rest) ← name? tail
    return .member name :: (← furtherSteps? fuel rest)
  | fuel + 1, '[' :: tail => do
    let (index, rest) ← index? tail
    return .item index :: (← furtherSteps? fuel rest)
  | _, _ => none

/-- The steps of a key that has the form of steps. -/
def stepsOf? (key : String) : Option (List Step) := do
  let (name, rest) ← name? key.toList
  return .member name :: (← furtherSteps? rest.length rest)

/-- Where a key leads. -/
def steps (key : String) : List Step := (stepsOf? key).getD [.member key]

/-- The members of a settings file laid over a tree, each where its key leads. -/
def overlayKeys (base : Setting) (members : List (String × Setting)) : Setting :=
  members.foldl (fun base entry => changeAt (fun part => overlay part entry.2) (steps entry.1) base)
    base

end Console.Setting
