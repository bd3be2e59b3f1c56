import Console.Json.Value

/-! # Structures in JSON

    A structure arrives as an object with named members, or as an array of its
    fields in declaration order, in which trailing fields may be missing but none may
    be surplus. Members that no field names are ignored.

    - `Parts.needed`: the field must be there,
    - `Parts.defaulted`: the field may be absent but not null,
    - `Parts.maybe`: the field may be absent or null.
-/

namespace Console

/-- The fields of a structure, by name or in declaration order. -/
inductive Parts where
  | named (members : List (String × Json))
  | listed (items : List Json)

namespace Parts

/-- Whether no item is surplus to a structure of `count` fields. -/
def fits (count : Nat) : Parts → Bool
  | named _ => true
  | listed items => items.length ≤ count

/-- The parts of a structure of `count` fields. -/
def ofJson? (count : Nat) : Json → Option Parts
  | .object members => some (.named members)
  | .array items => if items.length ≤ count then some (.listed items) else none
  | _ => none

/-- The tag of a tagged structure with its other parts: the member `tag`, or the first
    item. -/
def tagged? (tag : String) : Json → Option (Json × Parts)
  | .object members => (lookupEntry tag members).map fun value => (value, .named members)
  | .array (value :: rest) => some (value, .listed rest)
  | _ => none

/-- The field with the given place and name. -/
def field? (parts : Parts) (index : Nat) (name : String) : Option Json :=
  match parts with
  | named members => lookupEntry name members
  | listed items => items[index]?

variable {α : Type}

/-- A field that must be there. -/
def needed (parts : Parts) (index : Nat) (name : String) (read : Json → Option α) : Option α :=
  (parts.field? index name).bind read

/-- A field that may be absent. -/
def defaulted (parts : Parts) (index : Nat) (name : String) (read : Json → Option α)
    (default : α) : Option α :=
  match parts.field? index name with
  | none => some default
  | some value => read value

/-- A field that may be absent or null. -/
def maybe (parts : Parts) (index : Nat) (name : String) (read : Json → Option α) :
    Option (Option α) :=
  match parts.field? index name with
  | none => some none
  | some .null => some none
  | some value => (read value).map some

end Parts

namespace Json

variable {α : Type}

/-- Every item of an array. -/
def listOf? (read : Json → Option α) (value : Json) : Option (List α) :=
  value.items?.bind (·.mapM read)

/-- Every member of an object, in order. -/
def mapOf? (read : Json → Option α) (value : Json) : Option (OrderedMap String α) := do
  let members ← value.members?
  let entries ← members.mapM fun entry => (read entry.2).map fun x => (entry.1, x)
  return OrderedMap.ofList entries

/-- The name of a constant: a string, or an object whose one member has that name and
    is null. -/
def constant? : Json → Option String
  | .string name => some name
  | .object [(name, .null)] => some name
  | _ => none

end Json

end Console
