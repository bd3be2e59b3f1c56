import Console.Number.Binary64
import Console.OrderedMap

/-! # JSON values

    A value is what JSON text denotes, with two kinds of numbers kept apart: integers
    that fit 64 bits (signed or unsigned) and binary64 numbers. Objects keep the
    order of their members.

    `Json.same` is equality of values: members in any order, numbers by value within
    their kind.
-/

namespace Console

/-! ### The type -/

/-- A number: an integer of 64 bits, or a binary64 number. -/
inductive Number where
  | integer (value : Int)
      (inRange : -9223372036854775808 ≤ value ∧ value < 18446744073709551616)
  | real (value : Binary64)
  deriving DecidableEq

/-- A JSON value. -/
inductive Json where
  | null
  | bool (value : Bool)
  | number (value : Number)
  | string (value : String)
  | array (items : List Json)
  | object (members : List (String × Json))

instance : Inhabited Json := ⟨.null⟩

namespace Number

/-- The number as binary64, rounded if it is a large integer. -/
def toBinary64 : Number → Binary64
  | .integer value _ => Binary64.ofInt value
  | .real value => value

/-- The integer `i`, as a binary64 number where it does not fit 64 bits. -/
def ofInt (i : Int) : Number :=
  if h : -9223372036854775808 ≤ i ∧ i < 18446744073709551616 then .integer i h
  else .real (Binary64.ofInt i)

/-- Equality within a kind, the two zeros of binary64 being equal. -/
def same : Number → Number → Bool
  | .integer x _, .integer y _ => x == y
  | .real x, .real y => x.sameValue y
  | _, _ => false

end Number

namespace Json

/-! ### Building and reading -/

/-- The integer `n`. -/
def nat (n : Nat) : Json := .number (.ofInt n)

/-- The integer `i`. -/
def int (i : Int) : Json := .number (.ofInt i)

/-- The binary64 number `x`. -/
def real (x : Binary64) : Json := .number (.real x)

/-- A member that is present only with a value. -/
def optional (name : String) (value : Option Json) : List (String × Json) :=
  match value with
  | some value => [(name, value)]
  | none => []

/-- The member of an object with the given name. -/
def member? (name : String) : Json → Option Json
  | .object members => lookupEntry name members
  | _ => none

/-- The text of a string. -/
def string? : Json → Option String
  | .string value => some value
  | _ => none

/-- The truth value of a boolean. -/
def bool? : Json → Option Bool
  | .bool value => some value
  | _ => none

/-- A number read as binary64. -/
def real? : Json → Option Binary64
  | .number value => some value.toBinary64
  | _ => none

/-- An integer that is not negative. -/
def nat? : Json → Option Nat
  | .number (.integer value _) => if 0 ≤ value then some value.toNat else none
  | _ => none

/-- An unsigned integer of 64 bits. -/
def uint64? (value : Json) : Option UInt64 := do
  let n ← value.nat?
  if n < UInt64.size then some (UInt64.ofNat n) else none

/-- An unsigned integer of 32 bits. -/
def uint32? (value : Json) : Option UInt32 := do
  let n ← value.nat?
  if n < UInt32.size then some (UInt32.ofNat n) else none

/-- The items of an array. -/
def items? : Json → Option (List Json)
  | .array items => some items
  | _ => none

/-- The members of an object. -/
def members? : Json → Option (List (String × Json))
  | .object members => some members
  | _ => none

/-- The object with the given members, the last value of a name standing in the
    place of its first. -/
def ofMembers (members : List (String × Json)) : Json :=
  .object (members.foldl (fun known entry => insertEntry entry.1 entry.2 known) [])

/-- The members without `name`, the last member moving into its place. -/
def removeMember (name : String) (members : List (String × Json)) : List (String × Json) :=
  match members.getLast? with
  | none => []
  | some last =>
    if last.1 = name then members.dropLast
    else if (lookupEntry name members).isSome then
      members.dropLast.map fun entry => if entry.1 = name then last else entry
    else members

/-! ### Equality -/

mutual

/-- Equality of values, members in any order. -/
def same : Json → Json → Bool
  | .null, .null => true
  | .bool x, .bool y => x == y
  | .number x, .number y => x.same y
  | .string x, .string y => x == y
  | .array xs, .array ys => sameItems xs ys
  | .object xs, .object ys => xs.length == ys.length && sameMembers xs ys
  | _, _ => false

/-- Equality of items one by one. -/
def sameItems : List Json → List Json → Bool
  | [], [] => true
  | x :: xs, y :: ys => same x y && sameItems xs ys
  | _, _ => false

/-- Whether every member has an equal one of its name in `others`. -/
def sameMembers : List (String × Json) → List (String × Json) → Bool
  | [], _ => true
  | (name, x) :: rest, others =>
    (match lookupEntry name others with
      | some y => same x y
      | none => false) && sameMembers rest others

end

instance : BEq Json := ⟨same⟩

end Json

end Console
