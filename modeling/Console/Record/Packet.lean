import Console.Record.Basic
import Console.Record.Fault

/-! # Packets

    A packet is a record on the wire. `Record.ofPacket` reads one in four stages, the
    first failure of which is the answer: the types of all fields; the level; the
    arguments from left to right; the payload of the level and the time stamp.

    `Record.toPacket` writes a record back: described references become bare grips in
    the argument list, and grips that no argument refers to follow in `objects`.

    The object table starts with the packet's `objects`. It is carried from argument to
    argument (`Argument.listOfJson`), and what an argument says about an actor replaces
    what the table said before.
-/

namespace Console

/-! ### Fields -/

/-- The fields of a packet. -/
structure Packet where
  level : Option String
  arguments : Option (List Json)
  filename : Option String
  lineNumber : Option UInt32
  columnNumber : Option UInt32
  sourceId : Option String
  timeStamp : Option Binary64
  innerWindowId : Option UInt64
  counter : Option Counter
  timer : Option Timer
  stacktrace : Option Stack
  styles : Option (List String)
  resourceType : Option String
  isAlreadyExistingResource : Bool
  objects : Option (List Grip)

/-- Whether parts given as a list reach the arguments. -/
def Parts.reachArguments : Parts → Bool
  | named _ => true
  | listed items => 2 ≤ items.length

/-- Reads the fields of a packet. -/
def Packet.ofJson? (value : Json) : Option Packet := do
  let parts ← Parts.ofJson? 15 value
  guard parts.reachArguments
  return {
    level := ← parts.maybe 0 "level" Json.string?
    arguments := ← parts.maybe 1 "arguments" Json.items?
    filename := ← parts.maybe 2 "filename" Json.string?
    lineNumber := ← parts.maybe 3 "lineNumber" Json.uint32?
    columnNumber := ← parts.maybe 4 "columnNumber" Json.uint32?
    sourceId := ← parts.maybe 5 "sourceId" Json.string?
    timeStamp := ← parts.maybe 6 "timeStamp" Json.real?
    innerWindowId := ← parts.maybe 7 "innerWindowID" Json.uint64?
    counter := ← parts.maybe 8 "counter" Counter.ofJson?
    timer := ← parts.maybe 9 "timer" Timer.ofJson?
    stacktrace := ← parts.maybe 10 "stacktrace" (Json.listOf? StackFrame.ofJson?)
    styles := ← parts.maybe 11 "styles" (Json.listOf? Json.string?)
    resourceType := ← parts.maybe 12 "resourceType" Json.string?
    isAlreadyExistingResource := ← parts.defaulted 13 "isAlreadyExistingResource" Json.bool? false
    objects := ← parts.maybe 14 "objects" (Json.listOf? Grip.ofJson?) }

/-! ### Arguments -/

namespace Argument

/-- Reads a value that must be a grip: the grip enters the table, and a reference to the
    value that it describes is left. -/
def ofGripJson (index : Nat) (objects : ObjectTable) (value : Json) :
    Except Malformation (Argument × ObjectTable) :=
  match Grip.ofJson? value with
  | some grip => .ok (.reference ⟨grip.actor, grip.type⟩, objects.add grip)
  | none => .error (.argument index .grip)

/-- Reads an object: an entry with a `_grip`, a reference with an `actorID`, a bare grip,
    or a literal. -/
def ofMembers (index : Nat) (objects : ObjectTable) (members : List (String × Json)) :
    Except Malformation (Argument × ObjectTable) :=
  match lookupEntry "_grip" members with
  | some grip => ofGripJson index objects grip
  | none =>
    match (lookupEntry "actorID" members).bind Json.string? with
    | some actor =>
      -- a reference without a type refers to an object
      match lookupEntry "type" members with
      | none => .ok (.reference ⟨⟨actor⟩, .object⟩, objects)
      | some tag =>
        match ReferenceType.ofJson? tag with
        | some type => .ok (.reference ⟨⟨actor⟩, type⟩, objects)
        | none => .error (.argument index .value)
    | none =>
      match (lookupEntry "type" members).bind Json.string? with
      | none => .error (.argument index .untyped)
      | some name =>
        if (ReferenceType.ofName? name).isSome then ofGripJson index objects (.object members)
        else
          match Literal.ofJson? (.object members) with
          | some value => .ok (.literal value, objects)
          | none => .error (.argument index .value)

/-- Reads the argument with the given index. -/
def ofJson (index : Nat) (objects : ObjectTable) : Json → Except Malformation (Argument × ObjectTable)
  | .null => .ok (.literal .null, objects)
  | .bool value => .ok (.bool value, objects)
  | .number value => .ok (.number value.toBinary64, objects)
  | .string value => .ok (.text value, objects)
  | .array _ => .error (.argument index .bareArray)
  | .object members => ofMembers index objects members

/-- Reads arguments from left to right, the table growing on the way; the first that is
    refused is named by its index. -/
def listOfJson (index : Nat) (objects : ObjectTable) :
    List Json → Except Malformation (List Argument × ObjectTable)
  | [] => .ok ([], objects)
  | value :: rest =>
    match ofJson index objects value with
    | .error cause => .error cause
    | .ok (argument, objects) =>
      match listOfJson (index + 1) objects rest with
      | .error cause => .error cause
      | .ok (arguments, objects) => .ok (argument :: arguments, objects)

end Argument

/-! ### Reading records -/

/-- The kind of a level with the payload that a packet gives it. -/
def Kind.ofPacket (level : Level) (packet : Packet) : Except Malformation Kind :=
  let counted (kind : Counter → Kind) : Except Malformation Kind :=
    match packet.counter with
    | some counter => .ok (kind counter)
    | none => .error (.missingCounter level)
  let timed (kind : Timer → Kind) : Except Malformation Kind :=
    match packet.timer with
    | some timer => .ok (kind timer)
    | none => .error (.missingTimer level)
  match level with
  | .log => .ok (.bare .log)
  | .info => .ok (.bare .info)
  | .warn => .ok (.bare .warn)
  | .debug => .ok (.bare .debug)
  | .dir => .ok (.bare .dir)
  | .dirxml => .ok (.bare .dirxml)
  | .table => .ok (.bare .table)
  | .clear => .ok (.bare .clear)
  | .group => .ok (.bare .group)
  | .groupCollapsed => .ok (.bare .groupCollapsed)
  | .groupEnd => .ok (.bare .groupEnd)
  | .error => .ok (.error packet.stacktrace)
  | .assert => .ok (.assert packet.stacktrace)
  | .trace => .ok (.trace (packet.stacktrace.getD []))
  | .count => counted .count
  | .countReset => counted .countReset
  | .time => timed .time
  | .timeLog => timed .timeLog
  | .timeEnd => timed .timeEnd

/-- The time stamp of a packet, the epoch if it gives none. -/
def Packet.timestamp (packet : Packet) : Except Malformation Timestamp :=
  match packet.timeStamp with
  | none => .ok .epoch
  | some ms =>
    match Timestamp.ofMillis? ms with
    | some timestamp => .ok timestamp
    | none => .error (.timestamp ms)

/-- The level of a packet. -/
def Packet.readLevel (packet : Packet) : Except Malformation Level :=
  match packet.level with
  | none => .error .missingLevel
  | some name =>
    match Level.ofName? name with
    | some level => .ok level
    | none => .error (.unknownLevel name)

/-- The arguments of a packet, and its object table with what they describe. -/
def Packet.readArguments (packet : Packet) : Except Malformation (List Argument × ObjectTable) :=
  match packet.arguments with
  | none => .error .missingArguments
  | some values => Argument.listOfJson 0 (.ofList (packet.objects.getD [])) values

/-- Reads the record that a packet's fields describe. -/
def Packet.toRecord (packet : Packet) : Except Malformation Record := do
  -- the first failure is the answer, so the order of these lines matters
  let level ← packet.readLevel
  let (arguments, objects) ← packet.readArguments
  let kind ← Kind.ofPacket level packet
  let timestamp ← packet.timestamp
  return {
    kind := kind
    arguments := arguments
    location := {
      filename := packet.filename.getD ""
      lineNumber := packet.lineNumber.getD 0
      columnNumber := packet.columnNumber.getD 0
      sourceId := packet.sourceId }
    timestamp := timestamp
    innerWindowId := packet.innerWindowId
    styles := packet.styles.getD []
    resourceType := packet.resourceType.getD consoleMessage
    isAlreadyExistingResource := packet.isAlreadyExistingResource
    objects := objects }

namespace Record

/-- Reads a record from a packet. -/
def ofPacket (value : Json) : Except Fault Record :=
  match Packet.ofJson? value with
  | none => .error (.malformed .fields)
  | some packet => packet.toRecord.mapError .malformed

/-! ### Writing records -/

/-- An argument on the wire; a described reference is its bare grip. -/
def argumentJson (objects : ObjectTable) : Argument → Json
  | .text value => .string value
  | .number value => .real value
  | .bool value => .bool value
  | .literal value => value.toJson
  | .reference reference =>
    match objects.get? reference.actor with
    | some grip => grip.toJson
    | none =>
      .object [("actorID", .string reference.actor.text), ("type", .string reference.type.name)]

/-- The grips that no argument refers to. -/
def unreferenced (record : Record) : List Grip :=
  record.objects.toList.filter fun grip =>
    !record.references.any fun reference => reference.actor == grip.actor

/-- A member that is present only with items. -/
def nonempty (name : String) (items : List Json) : List (String × Json) :=
  if items.isEmpty then [] else [(name, .array items)]

/-- The members of a packet, with the given argument list. -/
def packetMembers (record : Record) (arguments : List Json) : List (String × Json) :=
  [("arguments", .array arguments),
    ("columnNumber", .nat record.location.columnNumber.toNat),
    ("filename", .string record.location.filename),
    ("level", .string record.level.name),
    ("lineNumber", .nat record.location.lineNumber.toNat),
    ("timeStamp", record.timestamp.toJson)]
  ++ Json.optional "sourceId" (record.location.sourceId.map .string)
  ++ Json.optional "innerWindowID" (record.innerWindowId.map fun n => .nat n.toNat)
  ++ Json.optional "counter" (record.kind.counter?.map Counter.toJson)
  ++ Json.optional "timer" (record.kind.timer?.map Timer.toJson)
  ++ Json.optional "stacktrace"
    (record.kind.stack?.map fun stack => .array (stack.map StackFrame.toJson))
  ++ nonempty "styles" (record.styles.map .string)
  ++ nonempty "objects" (record.unreferenced.map Grip.toJson)
  ++ [("resourceType", .string record.resourceType),
    ("isAlreadyExistingResource", .bool record.isAlreadyExistingResource)]

/-- The record as a packet. -/
def toPacket (record : Record) : Json :=
  .object (record.packetMembers (record.arguments.map (argumentJson record.objects)))

end Record

end Console
