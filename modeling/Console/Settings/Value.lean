import Console.Json.Value
import Console.Number.Decimal

/-! # Values of settings

    Settings are given as trees of values. A tree is laid over another one: tables are
    joined member by member, and any other value replaces what it is laid over.

    A scalar is read as what the setting needs where that makes sense, a number as a
    switch or the word `on` as a number; nothing else is.
-/

namespace Console

/-- A value of a settings file. -/
inductive Setting where
  | null
  | bool (value : Bool)
  | integer (value : Int)
  | real (value : Extended)
  | text (value : String)
  | list (items : List Setting)
  | table (members : List (String × Setting))

namespace Setting

/-! ### Layers -/

/-- The members of a table; any other value has none. -/
def members : Setting → List (String × Setting)
  | table members => members
  | _ => []

/-- The items of a list; any other value has none. -/
def items : Setting → List Setting
  | list items => items
  | _ => []

mutual

/-- A value laid over `base`. -/
def overlay (base : Setting) : (value : Setting) → Setting
  | table members => table (overlayAll base.members members)
  | null => null
  | bool value => bool value
  | integer value => integer value
  | real value => real value
  | text value => text value
  | list items => list items

/-- Members laid over the members of a table, one after the other. -/
def overlayAll (base : List (String × Setting)) : List (String × Setting) → List (String × Setting)
  | [] => base
  | (name, value) :: rest =>
    overlayAll (insertEntry name (overlay ((lookupEntry name base).getD null) value) base) rest

end

/-! ### Places -/

/-- One step from a value into a part of it. -/
inductive Step where
  | member (name : String)
  /-- An item of a list; a negative index counts from the end. -/
  | item (index : Int)

/-- A list with enough nulls before or behind it that the index falls inside, and the place
    where it then falls. -/
def reach (items : List Setting) (index : Int) : List Setting × Nat :=
  if 0 ≤ index then
    (items ++ List.replicate (index.toNat + 1 - items.length) null, index.toNat)
  else
    -- before the first item the list grows in front
    let back := index.natAbs
    if back ≤ items.length then (items, items.length - back)
    else (List.replicate (back - items.length) null ++ items, 0)

/-- The value with the part that steps lead to changed by `change`. What stands in the way
    of a step gives way to a table or a list. -/
def changeAt (change : Setting → Setting) : List Step → Setting → Setting
  | [], value => change value
  | .member name :: rest, value =>
    let part := (lookupEntry name value.members).getD null
    table (insertEntry name (changeAt change rest part) value.members)
  | .item index :: rest, value =>
    let (items, place) := reach value.items index
    list (items.modify place (changeAt change rest))

/-! ### Scalars -/

/-- The word in lower case. -/
def lower (word : String) : String := word.map Char.toLower

/-- What a word says about a switch. -/
def switch? (word : String) : Option Bool :=
  if ["true", "yes", "on"].contains (lower word) then some true
  else if ["false", "no", "off"].contains (lower word) then some false
  else none

/-- The first number beyond 64 bits. -/
def wordLimit : Nat := 18446744073709551616

/-- Decimal digits, after a plus sign or none, as a number of 64 bits. -/
def digits? (word : String) : Option UInt64 := do
  let digits := match word.toList with
    | '+' :: digits => digits
    | digits => digits
  if digits.isEmpty || !digits.all Char.isDigit then none
  else
    let n := digits.foldl (fun n c => n * 10 + (c.toNat - '0'.toNat)) 0
    if n < wordLimit then some n.toUInt64 else none

/-- The nearest number of 64 bits to a real, a half going up. -/
def clamp : Extended → UInt64
  | .finite x => (min x.roundAway.toNat (wordLimit - 1)).toUInt64
  | .infinite false => (wordLimit - 1).toUInt64
  | .infinite true => 0
  | .nan => 0

/-- The value as a count. -/
def count? : Setting → Option UInt64
  | integer value =>
    if 0 ≤ value ∧ value < wordLimit then some value.toNat.toUInt64 else none
  | real value => some (clamp value)
  | bool value => some (if value then 1 else 0)
  | text word => (switch? word).elim (digits? word) fun b => some (if b then 1 else 0)
  | _ => none

/-- The value as a switch. -/
def switchValue? : Setting → Option Bool
  | bool value => some value
  | integer value => some (value != 0)
  | real (.finite x) => some (!x.isZero)
  | real _ => some true
  | text "1" => some true
  | text "0" => some false
  | text word => switch? word
  | _ => none

/-- A real in full, without an exponent. -/
def plain : Extended → String
  | .finite x => x.positional
  | .infinite negative => if negative then "-inf" else "inf"
  | .nan => "NaN"

/-- The value as a text. -/
def text? : Setting → Option String
  | text value => some value
  | bool value => some (if value then "true" else "false")
  | integer value => some (toString value)
  | real value => some (plain value)
  | _ => none

/-- The value as a word out of several: a text, or a table of one member, whose name is
    the word. -/
def word? : Setting → Option String
  | text value => some value
  | table [(name, _)] => some name
  | _ => none

/-! ### From JSON -/

mutual

/-- A JSON value as a setting. -/
def ofJson : Json → Setting
  | .null => null
  | .bool value => bool value
  | .number (.integer value _) => integer value
  | .number (.real value) => real (.finite value)
  | .string value => text value
  | .array items => list (ofItems items)
  | .object members => table (ofMembers members)

/-- JSON values as settings. -/
def ofItems : List Json → List Setting
  | [] => []
  | item :: rest => ofJson item :: ofItems rest

/-- The members of a JSON object as settings. -/
def ofMembers : List (String × Json) → List (String × Setting)
  | [] => []
  | (name, value) :: rest => (name, ofJson value) :: ofMembers rest

end

end Setting

end Console
