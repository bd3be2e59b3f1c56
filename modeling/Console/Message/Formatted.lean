import Console.Message.Parameter
import Console.Message.Template

/-! # Formatted arguments

    Arguments are shown in one of three ways:

    - `Formatted.plain`: one after the other, with spaces between,
    - `Formatted.preStyled`: the first ones back to back, because the producer has already
      split them at their styles,
    - `Formatted.ofArguments`: the first as a template that the others fill in.

    A template is filled in by `Segments`: text is gathered until a style or a value of
    its own ends the segment. A style governs what follows it up to the next style; one
    whose segment stays empty leaves no trace. Directives without an argument stay as
    they are written, and arguments without a directive follow after a space.
-/

namespace Console

/-- Arguments ready to be shown. -/
structure Formatted where
  parameters : List Parameter
  /-- For each leading parameter that a styled template produced, its style; empty
      without styles. -/
  styles : List String
  text : String
  deriving DecidableEq

/-- The text followed by those of the parameters, each after a space unless nothing
    stands before it. -/
def appendTexts (text : String) (parameters : List Parameter) : String :=
  parameters.foldl
    (fun text p => (if text.isEmpty then text else text ++ " ") ++ p.display) text

/-! ### Numbers in arguments -/

/-- The number at the start of a text, after blanks: a sign, digits, and for `fractional`
    a point with digits. A sign without digits is no number. -/
def leadingNumber? (fractional : Bool) (text : List Char) : Option Extended :=
  let text := text.dropWhile Unicode.blank.contains
  let (negative, text) := match text with
    | '-' :: rest => (true, rest)
    | '+' :: rest => (false, rest)
    | rest => (false, rest)
  let whole := text.takeWhile Char.isDigit
  let fraction := match text.dropWhile Char.isDigit with
    | '.' :: rest => if fractional then rest.takeWhile Char.isDigit else []
    | _ => []
  if whole.isEmpty && fraction.isEmpty then none
  else
    -- the point is taken out of the digits and put into the scale
    let value := (whole ++ fraction).foldl (fun n c => n * 10 + (c.toNat - '0'.toNat)) 0
    some (Binary64.ofDecimal negative value (-(fraction.length : Int)))

namespace Parameter

/-- What `%d` and `%i` show: the integer part of a number or of the number at the start
    of a text. -/
def integerText : Parameter → String
  | literal (.bigInt digits) => digits
  | number x => x.truncate.text .console
  | text s =>
    match leadingNumber? false s.toList with
    | some (.finite x) => x.truncate.text .console
    | _ => "NaN"
  | literal .negativeZero => "0"
  | _ => "NaN"

/-- The number that `%f` shows. -/
def floatValue : Parameter → Extended
  | number x => .finite x
  | text s => (leadingNumber? true s.toList).getD .nan
  | literal .infinity => .infinite false
  | literal .negativeInfinity => .infinite true
  | literal .negativeZero => .finite (Binary64.signedZero true)
  | _ => .nan

/-- What `%f` shows, with as many decimal places as the precision says. -/
def floatText (places : Option Nat) (p : Parameter) : String :=
  match p.floatValue, places with
  | .finite x, some places => x.fixed places
  | x, _ => x.display

end Parameter

/-! ### Segments -/

/-- A template being filled in. -/
structure Segments where
  /-- The finished segments, each with the style that governed it. -/
  parts : List (Parameter × Option String) := []
  /-- The text of the current segment. -/
  current : String := ""
  /-- The style that governs the current segment, none before the first style. -/
  style : Option String := none

namespace Segments

/-- Adds text to the current segment. -/
def push (s : Segments) (text : String) : Segments := { s with current := s.current ++ text }

/-- Ends the current segment, unless it is empty. -/
def flush (s : Segments) : Segments :=
  if s.current.isEmpty then s
  else { s with parts := s.parts ++ [(.text s.current, s.style)], current := "" }

/-- Starts a segment with the given style. -/
def setStyle (s : Segments) (style : String) : Segments :=
  { s.flush with style := some style }

/-- Adds a value as a segment of its own. -/
def pushParameter (s : Segments) (p : Parameter) : Segments :=
  let s := s.flush
  { s with parts := s.parts ++ [(p, s.style)] }

/-- The finished segments as formatted arguments. -/
def finish (s : Segments) : Formatted :=
  let parts := s.flush.parts
  { parameters := parts.map Prod.fst
    styles := if s.style.isSome then parts.map fun part => part.2.getD "" else []
    text := String.join (parts.map fun part => part.1.display) }

/-- Applies a directive to its argument. -/
def apply (s : Segments) (d : Directive) (argument : Parameter) : Segments :=
  match d.conversion with
  | .style => s.setStyle (argument.text?.getD "")
  | .text => s.push argument.display
  | .integer _ => s.push argument.integerText
  | .float => s.push (argument.floatText d.places)
  | .value _ =>
    match argument with
    | .front _ => s.pushParameter argument
    | argument => s.push argument.display

/-- Fills in the pieces of a template and returns the arguments that are left. -/
def fill (s : Segments) : List Piece → List Parameter → Segments × List Parameter
  | [], arguments => (s, arguments)
  | .char c :: pieces, arguments => (s.push c.toString).fill pieces arguments
  | .percent :: pieces, arguments => (s.push "%").fill pieces arguments
  | .directive d :: pieces, arguments =>
    if d.isUsable then
      match arguments with
      | argument :: arguments => (s.apply d argument).fill pieces arguments
      -- nothing is left to show, so the directive stays as written
      | [] => (s.push (String.ofList d.source)).fill pieces []
    else (s.push (String.ofList d.source)).fill pieces arguments

end Segments

/-! ### The three ways -/

namespace Formatted

/-- No arguments, only a text. -/
def ofText (text : String) : Formatted := ⟨[], [], text⟩

/-- Arguments as they are, with spaces between. -/
def plain (parameters : List Parameter) : Formatted :=
  ⟨parameters, [], " ".intercalate (parameters.map Parameter.display)⟩

/-- Arguments that the producer has split at their styles. -/
def preStyled (parameters : List Parameter) (styles : List String) : Formatted :=
  let styled := String.join ((parameters.take styles.length).map Parameter.display)
  ⟨parameters, styles, appendTexts styled (parameters.drop styles.length)⟩

/-- A template filled in by the other arguments. -/
def expand (template : String) (arguments : List Parameter) : Formatted :=
  let (segments, rest) := ({} : Segments).fill (Template.scan template.toList) arguments
  let formatted := segments.finish
  { formatted with
    parameters := formatted.parameters ++ rest
    text := appendTexts formatted.text rest }

/-- Arguments of which the first, if it is a template, is filled in by the others. -/
def ofArguments : List Parameter → Formatted
  | .text template :: arguments =>
    if Template.isTemplate template then expand template arguments
    else plain (.text template :: arguments)
  | arguments => plain arguments

end Formatted

end Console
