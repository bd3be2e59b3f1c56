import Console.Record.Reference

/-! # Grips

    A grip is the producer's description of a value that stays on its side: an object, a
    symbol or a long string. It is tagged by its `type`; the shallow preview of an object
    is tagged by its `kind`. Grips are kept close to the wire, and written back with the
    tag first and the fields in the order of the structures below.
-/

namespace Console

/-! ### Types -/

/-- An own property of an object: a value, or accessors. -/
structure PropertyDescriptor where
  value : Option Json
  get : Option Json
  configurable : Bool
  enumerable : Bool
  writable : Bool

/-- Own properties by name, in the producer's order. -/
abbrev PropertyTable : Type := OrderedMap String PropertyDescriptor

/-- The shallow view of an object that comes with its grip. -/
inductive GripPreview where
  | object (ownProperties : PropertyTable) (ownPropertiesLength : Option UInt64)
  | arrayLike (length : UInt64) (items : List Json)
  | mapLike (size : UInt64) (entries : List (Json × Json))
  | objectWithUrl (url : String)
  | error (name message : String) (stack : Option String)
  /-- A kind of preview that is not known here. -/
  | other

/-- The description of an object. -/
structure ObjectGrip where
  actor : ActorId
  className : String
  ownPropertyLength : Option UInt64
  extensible : Bool
  frozen : Bool
  sealed : Bool
  isError : Bool
  /-- A form rendered by the producer, such as that of a regular expression. -/
  displayString : Option String
  preview : Option GripPreview
  /-- The full property table that tables send in place of a preview. -/
  ownProperties : Option PropertyTable

/-- The description of a producer-side value. -/
inductive Grip where
  | object (grip : ObjectGrip)
  | symbol (actor : ActorId) (name : Option String)
  | longString (actor : ActorId) (initial : String) (length : UInt64)

namespace Grip

/-- The actor that the grip describes. -/
def actor : Grip → ActorId
  | object grip => grip.actor
  | symbol actor _ => actor
  | longString actor _ _ => actor

/-- The type of the described value. -/
def type : Grip → ReferenceType
  | object _ => .object
  | symbol _ _ => .symbol
  | longString _ _ _ => .longString

end Grip

/-! ### Writing -/

namespace PropertyDescriptor

/-- The descriptor as JSON. -/
def toJson (d : PropertyDescriptor) : Json :=
  .object (Json.optional "value" d.value ++ Json.optional "get" d.get
    ++ [("configurable", .bool d.configurable), ("enumerable", .bool d.enumerable),
      ("writable", .bool d.writable)])

/-- A property table as JSON. -/
def tableToJson (table : PropertyTable) : Json :=
  .object (table.entries.map fun entry => (entry.1, entry.2.toJson))

end PropertyDescriptor

/-- The preview as JSON. -/
def GripPreview.toJson : GripPreview → Json
  | .object ownProperties ownPropertiesLength =>
    .object ([("kind", .string "Object"),
      ("ownProperties", PropertyDescriptor.tableToJson ownProperties)]
      ++ Json.optional "ownPropertiesLength" (ownPropertiesLength.map fun n => .nat n.toNat))
  | .arrayLike length items =>
    .object [("kind", .string "ArrayLike"), ("length", .nat length.toNat),
      ("items", .array items)]
  | .mapLike size entries =>
    .object [("kind", .string "MapLike"), ("size", .nat size.toNat),
      ("entries", .array (entries.map fun entry => .array [entry.1, entry.2]))]
  | .objectWithUrl url => .object [("kind", .string "ObjectWithURL"), ("url", .string url)]
  | .error name message stack =>
    .object ([("kind", .string "Error"), ("name", .string name), ("message", .string message)]
      ++ Json.optional "stack" (stack.map .string))
  | .other => .object [("kind", .string "Other")]

/-- The grip as JSON. -/
def Grip.toJson : Grip → Json
  | .object g =>
    .object ([("type", .string "object"), ("actor", .string g.actor.text),
      ("class", .string g.className)]
      ++ Json.optional "ownPropertyLength" (g.ownPropertyLength.map fun n => .nat n.toNat)
      ++ [("extensible", .bool g.extensible), ("frozen", .bool g.frozen),
        ("sealed", .bool g.sealed), ("isError", .bool g.isError)]
      ++ Json.optional "displayString" (g.displayString.map .string)
      ++ Json.optional "preview" (g.preview.map GripPreview.toJson)
      ++ Json.optional "ownProperties" (g.ownProperties.map PropertyDescriptor.tableToJson))
  | .symbol actor name =>
    .object ([("type", .string "symbol"), ("actor", .string actor.text)]
      ++ Json.optional "name" (name.map .string))
  | .longString actor initial length =>
    .object [("type", .string "longString"), ("actor", .string actor.text),
      ("initial", .string initial), ("length", .nat length.toNat)]

/-! ### Reading -/

/-- Reads a descriptor; a null value or getter is none. -/
def PropertyDescriptor.ofJson? (value : Json) : Option PropertyDescriptor := do
  let parts ← Parts.ofJson? 5 value
  return {
    value := ← parts.maybe 0 "value" some
    get := ← parts.maybe 1 "get" some
    configurable := ← parts.defaulted 2 "configurable" Json.bool? false
    enumerable := ← parts.defaulted 3 "enumerable" Json.bool? false
    writable := ← parts.defaulted 4 "writable" Json.bool? false }

namespace GripPreview

/-- The kinds of previews. -/
inductive Kind where
  | object
  | arrayLike
  | mapLike
  | objectWithUrl
  | error
  | other

/-- Reads a kind: a name or the place in the list of kinds, anything unknown being
    `other`. -/
def kindOfJson? : Json → Option Kind
  | .string "Object" => some .object
  | .string "ArrayLike" => some .arrayLike
  | .string "MapLike" => some .mapLike
  | .string "ObjectWithURL" => some .objectWithUrl
  | .string "Error" => some .error
  | .string _ => some .other
  | .number (.integer value _) =>
    if value < 0 then none
    else match value.toNat with
      | 0 => some .object
      | 1 => some .arrayLike
      | 2 => some .mapLike
      | 3 => some .objectWithUrl
      | 4 => some .error
      | _ => some .other
  | _ => none

/-- Reads an entry of a map: an array of exactly a key and a value. -/
def entryOfJson? : Json → Option (Json × Json)
  | .array [key, value] => some (key, value)
  | _ => none

/-- Reads the fields of a preview of the given kind. -/
def ofParts? (parts : Parts) : Kind → Option GripPreview
  | .object => do
    guard (parts.fits 2)
    return object
      (← parts.defaulted 0 "ownProperties" (Json.mapOf? PropertyDescriptor.ofJson?)
        OrderedMap.empty)
      (← parts.maybe 1 "ownPropertiesLength" Json.uint64?)
  | .arrayLike => do
    guard (parts.fits 2)
    return arrayLike (← parts.defaulted 0 "length" Json.uint64? 0)
      (← parts.defaulted 1 "items" Json.items? [])
  | .mapLike => do
    guard (parts.fits 2)
    return mapLike (← parts.defaulted 0 "size" Json.uint64? 0)
      (← parts.defaulted 1 "entries" (Json.listOf? entryOfJson?) [])
  | .objectWithUrl => do
    guard (parts.fits 1)
    return objectWithUrl (← parts.defaulted 0 "url" Json.string? "")
  | .error => do
    guard (parts.fits 3)
    return error (← parts.defaulted 0 "name" Json.string? "")
      (← parts.defaulted 1 "message" Json.string? "")
      (← parts.maybe 2 "stack" Json.string?)
  | .other => do
    guard (parts.fits 0)
    return other

/-- Reads a preview. -/
def ofJson? (value : Json) : Option GripPreview := do
  let (kind, parts) ← Parts.tagged? "kind" value
  ofParts? parts (← kindOfJson? kind)

end GripPreview

/-- Reads the fields of an object grip. -/
def ObjectGrip.ofParts? (parts : Parts) : Option ObjectGrip := do
  guard (parts.fits 10)
  return {
    actor := ⟨← parts.needed 0 "actor" Json.string?⟩
    className := ← parts.defaulted 1 "class" Json.string? "Object"
    ownPropertyLength := ← parts.maybe 2 "ownPropertyLength" Json.uint64?
    extensible := ← parts.defaulted 3 "extensible" Json.bool? true
    frozen := ← parts.defaulted 4 "frozen" Json.bool? false
    sealed := ← parts.defaulted 5 "sealed" Json.bool? false
    isError := ← parts.defaulted 6 "isError" Json.bool? false
    displayString := ← parts.maybe 7 "displayString" Json.string?
    preview := ← parts.maybe 8 "preview" GripPreview.ofJson?
    ownProperties := ← parts.maybe 9 "ownProperties"
      (Json.mapOf? PropertyDescriptor.ofJson?) }

/-- Reads the fields of a grip of the given type. -/
def Grip.ofParts? (parts : Parts) : ReferenceType → Option Grip
  | .object => (ObjectGrip.ofParts? parts).map .object
  | .symbol => do
    guard (parts.fits 2)
    return symbol ⟨← parts.needed 0 "actor" Json.string?⟩ (← parts.maybe 1 "name" Json.string?)
  | .longString => do
    guard (parts.fits 3)
    return longString ⟨← parts.needed 0 "actor" Json.string?⟩
      (← parts.needed 1 "initial" Json.string?) (← parts.needed 2 "length" Json.uint64?)

/-- Reads a grip. -/
def Grip.ofJson? (value : Json) : Option Grip := do
  let (tag, parts) ← Parts.tagged? "type" value
  ofParts? parts (← ReferenceType.ofName? (← tag.string?))

/-! ### Equality -/

instance : BEq (OrderedMap String PropertyDescriptor) where
  beq := OrderedMap.same fun x y =>
    x.value == y.value && x.get == y.get && x.configurable == y.configurable
      && x.enumerable == y.enumerable && x.writable == y.writable

deriving instance BEq for GripPreview, ObjectGrip, Grip

end Console
