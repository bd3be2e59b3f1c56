import Console.Front.Summary

/-! # Parameters

    A parameter is an argument whose reference has been resolved: the front that it
    stands for is shared by all parameters of its actor, and the serial number of the
    share tells instances apart.
-/

namespace Console

/-- A value that several holders share. Shares with one serial are one instance. -/
structure Shared (α : Type) where
  serial : Nat
  value : α
  deriving DecidableEq

/-- A resolved argument. -/
inductive Parameter where
  | text (value : String)
  | number (value : Binary64)
  | bool (value : Bool)
  | literal (value : Literal)
  | front (shared : Shared Front)
  deriving DecidableEq

namespace Parameter

/-- How the parameter reads in a message. -/
def display : Parameter → String
  | text value => value
  | number value => value.text .console
  | bool value => if value then "true" else "false"
  | literal value => value.display
  | front shared => shared.value.summary

/-- The parameter as JSON. -/
def toJson : Parameter → Json
  | text value => .string value
  | number value => .real value
  | bool value => .bool value
  | literal value => value.toJson
  | front shared => shared.value.toJson

/-- The text, if the parameter is one. -/
def text? : Parameter → Option String
  | text value => some value
  | _ => none

/-- The shared front, if the parameter is one. -/
def front? : Parameter → Option (Shared Front)
  | front shared => some shared
  | _ => none

/-- The parameter without the identity of its front. -/
def content : Parameter → Parameter
  | front shared => front { shared with serial := 0 }
  | parameter => parameter

end Parameter

end Console
