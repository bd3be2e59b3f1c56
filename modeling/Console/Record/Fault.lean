import Console.Level
import Console.Record.Reference
import Console.Number.Decimal
import Console.Text.Quoted

/-! # Faults

    What can go wrong with a record: a malformed packet, a key used twice, a reference
    that cannot be resolved, a source that cannot be reached. `Fault.message` words each
    cause.
-/

namespace Console

/-- Stands in a message for the wording of a cause below this library, such as where JSON
    text breaks off or which field has the wrong type. -/
def detail : String := "<detail>"

/-- What is wrong with an argument of a packet. -/
inductive ArgumentFault where
  /-- An array that is not wrapped in a grip. -/
  | bareArray
  /-- An object without a `type`. -/
  | untyped
  /-- A grip with missing or mistyped fields. -/
  | grip
  /-- A literal or a reference type that does not exist. -/
  | value
  deriving DecidableEq

/-- What is wrong with a packet. -/
inductive Malformation where
  /-- A field of the packet has the wrong type. -/
  | fields
  | missingLevel
  | unknownLevel (name : String)
  | missingArguments
  | argument (index : Nat) (fault : ArgumentFault)
  | missingCounter (level : Level)
  | missingTimer (level : Level)
  | timestamp (ms : Binary64)
  deriving DecidableEq

/-- Why a record is refused, or cannot be prepared. -/
inductive Fault where
  | malformed (cause : Malformation)
  | duplicateKey (key : String)
  | unresolvable (reference : Reference)
  | unavailable (actor : ActorId) (reason : String)
  deriving DecidableEq

/-- The wording of what is wrong with an argument. -/
def ArgumentFault.message : ArgumentFault → String
  | bareArray => "bare arrays must be sent as object grips"
  | untyped => "object without a `type` tag"
  | grip => "invalid grip: " ++ detail
  | value => detail

/-- The wording of what is wrong with a packet. -/
def Malformation.message : Malformation → String
  | fields => "invalid packet: " ++ detail
  | missingLevel => "missing `level`"
  | unknownLevel name => "unknown level " ++ quoted name
  | missingArguments => "missing `arguments`"
  | argument index fault => "argument " ++ toString index ++ ": " ++ fault.message
  | missingCounter level => level.name ++ " record without `counter`"
  | missingTimer level => level.name ++ " record without `timer`"
  | timestamp ms => "timeStamp " ++ ms.positional ++ " is out of range"

/-- The wording of a fault. -/
def Fault.message : Fault → String
  | malformed cause => "malformed record: " ++ cause.message
  | duplicateKey key => "duplicate registry key " ++ quoted key
  | unresolvable reference =>
    "unresolvable " ++ reference.type.name ++ " reference to actor " ++ reference.actor.text
  | unavailable actor reason =>
    "grip source unavailable for actor " ++ actor.text ++ ": " ++ reason

end Console
