import Console.Json.Parts

/-! # References to values on the producer's side

    Objects, symbols and long strings stay with the producer. A record holds a
    reference: the actor that stands for the value, and the type it is expected to be.
-/

namespace Console

/-- The name of a producer-side value within one session. -/
structure ActorId where
  text : String
  deriving DecidableEq

/-- What kind of value an actor stands for. -/
inductive ReferenceType where
  | object
  | symbol
  | longString
  deriving DecidableEq

namespace ReferenceType

/-- The name on the wire. -/
def name : ReferenceType → String
  | object => "object"
  | symbol => "symbol"
  | longString => "longString"

/-- The type with the given name. -/
def ofName? : String → Option ReferenceType
  | "object" => some object
  | "symbol" => some symbol
  | "longString" => some longString
  | _ => none

/-- Reads a type written as a constant. -/
def ofJson? (value : Json) : Option ReferenceType := value.constant?.bind ofName?

end ReferenceType

/-- A stand-in for a producer-side value among the arguments of a call. -/
structure Reference where
  actor : ActorId
  type : ReferenceType
  deriving DecidableEq

end Console
