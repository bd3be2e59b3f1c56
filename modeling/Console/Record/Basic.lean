import Console.Grip
import Console.Level
import Console.Literal
import Console.Record.Payload
import Console.Record.Timestamp

/-! # Records

    A record is one console call as the producer captured it: its kind (the level with
    the payload that the level carries), its arguments, where and when it was made, and
    the table of the objects that the arguments refer to.

    In an object table each grip stands under its own actor, and the last description
    of an actor replaces earlier ones in their place.
-/

namespace Console

/-! ### Arguments -/

/-- One argument of a call. -/
inductive Argument where
  | text (value : String)
  | number (value : Binary64)
  | bool (value : Bool)
  | literal (value : Literal)
  | reference (value : Reference)
  deriving DecidableEq

/-- The reference, if the argument is one. -/
def Argument.reference? : Argument → Option Reference
  | reference value => some value
  | _ => none

/-! ### Object tables -/

/-- Descriptions of producer-side values by actor. -/
structure ObjectTable where
  grips : OrderedMap ActorId Grip
  /-- Each grip stands under its own actor. -/
  ownActor : ∀ entry ∈ grips.entries, entry.2.actor = entry.1

namespace ObjectTable

/-- The table without descriptions. -/
def empty : ObjectTable := ⟨.empty, by simp [OrderedMap.empty]⟩

instance : Inhabited ObjectTable := ⟨empty⟩

/-- The table with a further description, which replaces an earlier one of its actor. -/
def add (table : ObjectTable) (grip : Grip) : ObjectTable where
  grips := table.grips.insert grip.actor grip
  ownActor := fun entry h => by
    rcases mem_insertEntry h with h | h
    · rw [h]
    · exact table.ownActor entry h

/-- The table of a list of descriptions, read from the left. -/
def ofList (grips : List Grip) : ObjectTable := grips.foldl add empty

/-- The description of an actor. -/
def get? (table : ObjectTable) (actor : ActorId) : Option Grip := table.grips.get? actor

/-- Whether the actor is described. -/
def contains (table : ObjectTable) (actor : ActorId) : Bool := table.grips.contains actor

/-- The descriptions in the order of their actors' first description. -/
def toList (table : ObjectTable) : List Grip := table.grips.entries.map Prod.snd

/-- The number of described actors. -/
def size (table : ObjectTable) : Nat := table.grips.size

end ObjectTable

/-! ### Kinds -/

/-- A level without a payload of its own. -/
inductive BareLevel where
  | log
  | info
  | warn
  | debug
  | dir
  | dirxml
  | table
  | clear
  | group
  | groupCollapsed
  | groupEnd
  deriving DecidableEq

/-- The level itself. -/
def BareLevel.level : BareLevel → Level
  | log => .log
  | info => .info
  | warn => .warn
  | debug => .debug
  | dir => .dir
  | dirxml => .dirxml
  | table => .table
  | clear => .clear
  | group => .group
  | groupCollapsed => .groupCollapsed
  | groupEnd => .groupEnd

/-- A level together with the payload that it carries. -/
inductive Kind where
  | bare (level : BareLevel)
  | error (stack : Option Stack)
  | assert (stack : Option Stack)
  | trace (stack : Stack)
  | count (counter : Counter)
  | countReset (counter : Counter)
  | time (timer : Timer)
  | timeLog (timer : Timer)
  | timeEnd (timer : Timer)
  deriving DecidableEq

namespace Kind

/-- The level of the kind. -/
def level : Kind → Level
  | bare level => level.level
  | error _ => .error
  | assert _ => .assert
  | trace _ => .trace
  | count _ => .count
  | countReset _ => .countReset
  | time _ => .time
  | timeLog _ => .timeLog
  | timeEnd _ => .timeEnd

/-- The counter, if the kind carries one. -/
def counter? : Kind → Option Counter
  | count counter | countReset counter => some counter
  | _ => none

/-- The timer, if the kind carries one. -/
def timer? : Kind → Option Timer
  | time timer | timeLog timer | timeEnd timer => some timer
  | _ => none

/-- The captured stack, if the kind carries one. -/
def stack? : Kind → Option Stack
  | trace stack => some stack
  | error stack | assert stack => stack
  | _ => none

end Kind

/-! ### Records -/

/-- The resource type of records that give none. -/
def consoleMessage : String := "console-message"

/-- A console call as it was captured. -/
structure Record where
  kind : Kind
  arguments : List Argument := []
  location : Location := {}
  timestamp : Timestamp := .epoch
  innerWindowId : Option UInt64 := none
  /-- Styles that the producer has already split out of a template, one for each
      leading argument. -/
  styles : List String := []
  resourceType : String := consoleMessage
  isAlreadyExistingResource : Bool := false
  objects : ObjectTable := .empty

namespace Record

/-- The level of the call. -/
def level (record : Record) : Level := record.kind.level

/-- The references among the arguments, in order, repeats kept. -/
def references (record : Record) : List Reference :=
  record.arguments.filterMap Argument.reference?

/-- Equality of records, the object tables being compared as maps. -/
def same (x y : Record) : Bool :=
  x.kind == y.kind && x.arguments == y.arguments && x.location == y.location
    && x.timestamp == y.timestamp && x.innerWindowId == y.innerWindowId
    && x.styles == y.styles && x.resourceType == y.resourceType
    && x.isAlreadyExistingResource == y.isAlreadyExistingResource
    && x.objects.grips.same (· == ·) y.objects.grips

end Record

end Console
