import Console.Json.Parts

/-! # Literals

    Values of the console's language that JSON has no form for travel as objects with
    a `type`. Only a big integer carries a further member, its digits.
-/

namespace Console

/-- A value that JSON cannot carry as itself. -/
inductive Literal where
  | undefined
  | null
  | nan
  | infinity
  | negativeInfinity
  | negativeZero
  | bigInt (text : String)
  deriving DecidableEq

namespace Literal

/-- How the value reads in a message. -/
def display : Literal → String
  | undefined => "undefined"
  | null => "null"
  | nan => "NaN"
  | infinity => "Infinity"
  | negativeInfinity => "-Infinity"
  | negativeZero => "-0"
  | bigInt text => text ++ "n"

/-- The value as JSON. -/
def toJson : Literal → Json
  | bigInt text => .object [("type", .string "BigInt"), ("text", .string text)]
  | literal => .object [("type", .string literal.display)]

/-- Reads a literal from an object. -/
def ofJson? (value : Json) : Option Literal := do
  match ← (← value.member? "type").string? with
  | "undefined" => some undefined
  | "null" => some null
  | "NaN" => some nan
  | "Infinity" => some infinity
  | "-Infinity" => some negativeInfinity
  | "-0" => some negativeZero
  | "BigInt" => return bigInt (← (← value.member? "text").string?)
  | _ => none

end Literal

end Console
