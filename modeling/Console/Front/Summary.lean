import Console.Front.Basic
import Console.Number.Decimal
import Console.Text.Quoted

/-! # Summaries and JSON of fronts

    A summary is the one line that stands for a value in a message: `Object { a: 1 }`,
    `Array(3) [ 1, 2, … ]`, `Map(1) { "k" → "v" }`. A list that was cut ends in `…`.
-/

namespace Console

/-! ### Summaries -/

/-- The mark of something left out. -/
def ellipsis : String := "…"

/-- The summary of a symbol. -/
def symbolText (name : Option String) : String := "Symbol(" ++ name.getD "" ++ ")"

/-- The head of a long string, marked if there is more of it. -/
def longStringText (initial : String) (length : Nat) : String :=
  if initial.length < length then initial ++ ellipsis else initial

/-- A list between brackets, marked if it was cut. -/
def listText (opening closing : String) (parts : List String) (cut : Bool) : String :=
  if parts.isEmpty && !cut then opening ++ closing
  else opening ++ " " ++ ", ".intercalate (parts ++ (if cut then [ellipsis] else []))
    ++ " " ++ closing

/-- How a child reads; text is quoted. -/
def Child.display : Child → String
  | text value => quoted value
  | number value => value.text .console
  | bool value => if value then "true" else "false"
  | literal value => value.display
  | object className => className
  | symbol name => symbolText name
  | longString initial length => quoted (longStringText initial length)
  | getter => "Getter"

namespace Front

/-- The class that the summary names. -/
def classText (front : Front) : String := front.className.getD "Object"

/-- The summary of a value. -/
def summary (front : Front) : String :=
  match front.preview with
  | .object properties total =>
    front.classText ++ " "
      ++ listText "\x7b" "\x7d" (properties.map fun p => p.1 ++ ": " ++ p.2.display)
        (properties.length < total)
  | .arrayLike items length =>
    front.classText ++ "(" ++ toString length ++ ") "
      ++ listText "[" "]" (items.map Child.display) (items.length < length)
  | .mapLike entries size =>
    front.classText ++ "(" ++ toString size ++ ") "
      ++ listText "\x7b" "\x7d" (entries.map fun e => e.1.display ++ " → " ++ e.2.display)
        (entries.length < size)
  | .url address => front.classText ++ " " ++ address
  | .error name message _ => if message.isEmpty then name else name ++ ": " ++ message
  | .symbol name => symbolText name
  | .longString initial length => longStringText initial length
  | .none => front.displayString.getD front.classText

end Front

/-! ### JSON -/

/-- A child as JSON. -/
def Child.toJson : Child → Json
  | text value => .string value
  | number value => .real value
  | bool value => .bool value
  | literal value => value.toJson
  | object className => .object [("class", .string className)]
  | symbol name => .object [("symbol", (name.map Json.string).getD .null)]
  | longString initial length =>
    .object [("initial", .string initial), ("length", .nat length)]
  | getter => .object [("getter", .bool true)]

/-- A preview as JSON. -/
def Preview.toJson : Preview → Json
  | none => .object [("kind", .string "none")]
  | object properties total =>
    .object [("kind", .string "object"),
      ("properties", .array (properties.map fun p =>
        .object [("name", .string p.1), ("value", p.2.toJson)])),
      ("total", .nat total)]
  | arrayLike items length =>
    .object [("kind", .string "arrayLike"), ("items", .array (items.map Child.toJson)),
      ("length", .nat length)]
  | mapLike entries size =>
    .object [("kind", .string "mapLike"),
      ("entries", .array (entries.map fun e =>
        .object [("key", e.1.toJson), ("value", e.2.toJson)])),
      ("size", .nat size)]
  | url address => .object [("kind", .string "url"), ("url", .string address)]
  | error name message stack =>
    .object ([("kind", .string "error"), ("name", .string name), ("message", .string message)]
      ++ Json.optional "stack" (stack.map .string))
  | symbol name =>
    .object ([("kind", .string "symbol")] ++ Json.optional "name" (name.map .string))
  | longString initial length =>
    .object [("kind", .string "longString"), ("initial", .string initial),
      ("length", .nat length)]

/-- Flags as JSON. -/
def Flags.toJson (flags : Flags) : Json :=
  .object [("extensible", .bool flags.extensible), ("frozen", .bool flags.frozen),
    ("sealed", .bool flags.sealed), ("isError", .bool flags.isError)]

/-- A front as JSON. -/
def Front.toJson (front : Front) : Json :=
  .object ([("actor", .string front.actor.text), ("kind", .string front.type.name)]
    ++ Json.optional "className" (front.className.map .string)
    ++ Json.optional "ownPropertyLength" (front.ownPropertyLength.map fun n => .nat n.toNat)
    ++ [("flags", front.flags.toJson)]
    ++ Json.optional "displayString" (front.displayString.map .string)
    ++ [("preview", front.preview.toJson)])

end Console
