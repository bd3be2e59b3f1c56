import Console.Grip
import Console.Literal

/-! # Fronts

    A front is the local, display-ready snapshot of a producer-side value. It is shallow:
    nested values are reduced to a `Child`, and of items, entries and properties only as
    many are kept as the `Limits` allow. The size that the producer reported is kept
    beside them, so it never depends on the limits.
-/

namespace Console

/-- How many children a preview keeps at most. -/
structure Limits where
  maxItems : Nat := 10
  maxProperties : Nat := 10
  maxEntries : Nat := 10
  deriving DecidableEq

/-- A value inside a preview; objects are not expanded. -/
inductive Child where
  | text (value : String)
  | number (value : Binary64)
  | bool (value : Bool)
  | literal (value : Literal)
  | object (className : String)
  | symbol (name : Option String)
  | longString (initial : String) (length : Nat)
  | getter
  deriving DecidableEq

/-- The shallow view of a value. -/
inductive Preview where
  | none
  | object (properties : List (String × Child)) (total : Nat)
  | arrayLike (items : List Child) (length : Nat)
  | mapLike (entries : List (Child × Child)) (size : Nat)
  | url (url : String)
  | error (name message : String) (stack : Option String)
  | symbol (name : Option String)
  | longString (initial : String) (length : Nat)
  deriving DecidableEq

/-- Properties of an object that have no part in its preview. -/
structure Flags where
  extensible : Bool := false
  frozen : Bool := false
  sealed : Bool := false
  isError : Bool := false
  deriving DecidableEq

/-- The snapshot of a value. -/
structure Front where
  actor : ActorId
  type : ReferenceType
  className : Option String := .none
  ownPropertyLength : Option UInt64 := .none
  flags : Flags := {}
  displayString : Option String := .none
  preview : Preview
  deriving DecidableEq

/-! ### Children -/

namespace Child

/-- Reduces the members of an object. A grip keeps its class, its name or its head; a
    literal is itself; any other object counts as undefined. -/
def ofMembers (members : List (String × Json)) : Child :=
  let string (name : String) := (lookupEntry name members).bind Json.string?
  match string "type" with
  | some "object" => object ((string "class").getD "Object")
  | some "symbol" => symbol (string "name")
  | some "longString" =>
    longString ((string "initial").getD "")
      (((lookupEntry "length" members).bind Json.nat?).getD 0)
  | _ => literal ((Literal.ofJson? (.object members)).getD .undefined)

/-- Reduces a value. -/
def ofJson : Json → Child
  | .null => literal .null
  | .bool value => bool value
  | .number value => number value.toBinary64
  | .string value => text value
  | .array _ => object "Array"
  | .object members => ofMembers members

/-- Reduces a property: its value, or a mark that it has a getter. -/
def ofDescriptor (d : PropertyDescriptor) : Child :=
  match d.value, d.get with
  | some value, _ => ofJson value
  | .none, some _ => getter
  | .none, .none => literal .undefined

end Child

/-! ### Fronts of grips -/

/-- The first `limit` properties of a table. -/
def firstProperties (table : PropertyTable) (limit : Nat) : List (String × Child) :=
  (table.entries.take limit).map fun entry => (entry.1, Child.ofDescriptor entry.2)

namespace ObjectGrip

/-- The preview of an object that comes without a usable one: its property table, if it
    has one. -/
def tablePreview (grip : ObjectGrip) (limits : Limits) : Preview :=
  match grip.ownProperties with
  | some table => .object (firstProperties table limits.maxProperties) table.size
  | .none => .none

/-- The preview of an object. The total of its properties is the number reported by the
    preview, else by the grip, else the number of properties sent. -/
def limitedPreview (grip : ObjectGrip) (limits : Limits) : Preview :=
  match grip.preview with
  | some (.object table reported) =>
    .object (firstProperties table limits.maxProperties)
      (((reported <|> grip.ownPropertyLength).map UInt64.toNat).getD table.size)
  | some (.arrayLike length items) =>
    .arrayLike ((items.take limits.maxItems).map Child.ofJson) length.toNat
  | some (.mapLike size entries) =>
    .mapLike
      ((entries.take limits.maxEntries).map fun e => (Child.ofJson e.1, Child.ofJson e.2))
      size.toNat
  | some (.objectWithUrl url) => .url url
  | some (.error name message stack) => .error name message stack
  -- a kind of preview that is not known counts as none
  | some .other => grip.tablePreview limits
  | .none => grip.tablePreview limits

end ObjectGrip

namespace Front

/-- The front of a grip, with its preview cut to the limits. -/
def ofGrip (limits : Limits) : Grip → Front
  | .object grip =>
    { actor := grip.actor
      type := .object
      className := some grip.className
      ownPropertyLength := grip.ownPropertyLength
      flags := ⟨grip.extensible, grip.frozen, grip.sealed, grip.isError⟩
      displayString := grip.displayString
      preview := grip.limitedPreview limits }
  | .symbol actor name => { actor := actor, type := .symbol, preview := .symbol name }
  | .longString actor initial length =>
    { actor := actor, type := .longString, preview := .longString initial length.toNat }

@[simp] theorem actor_ofGrip (limits : Limits) (grip : Grip) :
    (ofGrip limits grip).actor = grip.actor := by
  cases grip <;> rfl

@[simp] theorem type_ofGrip (limits : Limits) (grip : Grip) :
    (ofGrip limits grip).type = grip.type := by
  cases grip <;> rfl

end Front

end Console
