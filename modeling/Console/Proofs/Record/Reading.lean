import Console.Record.Packet

/-! # Arguments read apart

    The arguments of a packet are read with a table that grows from each to the next. None
    of them looks at the table, so that each can be read by itself (`ReadArgument.ofJson`),
    with the description that it adds beside it:

    - `Argument.ofJson_eq`: one argument, at any index and with any table,
    - `Argument.listOfJson_eq`: arguments from left to right,
    - `Packet.toRecord_eq`: the record of a packet.
-/

namespace Console

/-! ### One argument by itself -/

/-- An argument as it is read by itself, with the description of an actor that it carries. -/
structure ReadArgument where
  argument : Argument
  described : Option Grip := none

namespace ReadArgument

/-- A reference to the value that a grip describes, with the grip. -/
def ofGrip (grip : Grip) : ReadArgument :=
  { argument := .reference ⟨grip.actor, grip.type⟩, described := some grip }

/-- Reads a value that must be a grip. -/
def ofGripJson (value : Json) : Except ArgumentFault ReadArgument :=
  match Grip.ofJson? value with
  | some grip => .ok (ofGrip grip)
  | none => .error .grip

/-- Reads an object: an entry with a `_grip`, a reference with an `actorID`, a bare grip,
    or a literal. -/
def ofMembers (members : List (String × Json)) : Except ArgumentFault ReadArgument :=
  match lookupEntry "_grip" members with
  | some grip => ofGripJson grip
  | none =>
    match (lookupEntry "actorID" members).bind Json.string? with
    | some actor =>
      -- a reference without a type refers to an object
      match lookupEntry "type" members with
      | none => .ok { argument := .reference ⟨⟨actor⟩, .object⟩ }
      | some tag =>
        match ReferenceType.ofJson? tag with
        | some type => .ok { argument := .reference ⟨⟨actor⟩, type⟩ }
        | none => .error .value
    | none =>
      match (lookupEntry "type" members).bind Json.string? with
      | none => .error .untyped
      | some name =>
        if (ReferenceType.ofName? name).isSome then ofGripJson (.object members)
        else
          match Literal.ofJson? (.object members) with
          | some literal => .ok { argument := .literal literal }
          | none => .error .value

/-- Reads one argument. -/
def ofJson : Json → Except ArgumentFault ReadArgument
  | .null => .ok { argument := .literal .null }
  | .bool value => .ok { argument := .bool value }
  | .number value => .ok { argument := .number value.toBinary64 }
  | .string value => .ok { argument := .text value }
  | .array _ => .error .bareArray
  | .object members => ofMembers members

/-- Reads arguments from left to right; the first that is refused is named by its
    index. -/
def listOfJson (index : Nat) : List Json → Except Malformation (List ReadArgument)
  | [] => .ok []
  | value :: rest =>
    match ofJson value with
    | .error fault => .error (.argument index fault)
    | .ok argument =>
      match listOfJson (index + 1) rest with
      | .error cause => .error cause
      | .ok arguments => .ok (argument :: arguments)

end ReadArgument

/-! ### The table that grows -/

namespace ReadArgument

/-- What reading an argument at an index leaves with a table, told by how the argument is read
    by itself: the argument and the table with its description, or its fault at the index. -/
def entered (index : Nat) (objects : ObjectTable) :
    Except ArgumentFault ReadArgument → Except Malformation (Argument × ObjectTable)
  | .error fault => .error (.argument index fault)
  | .ok read => .ok (read.argument, read.described.toList.foldl .add objects)

end ReadArgument

namespace Argument

variable (index : Nat) (objects : ObjectTable)

theorem ofGripJson_eq (value : Json) :
    ofGripJson index objects value =
      ReadArgument.entered index objects (ReadArgument.ofGripJson value) := by
  unfold ofGripJson ReadArgument.ofGripJson
  cases Grip.ofJson? value with
  | none => rfl
  | some grip => rfl

theorem ofMembers_eq (members : List (String × Json)) :
    ofMembers index objects members =
      ReadArgument.entered index objects (ReadArgument.ofMembers members) := by
  unfold ofMembers ReadArgument.ofMembers
  cases lookupEntry "_grip" members with
  | some grip => exact ofGripJson_eq index objects grip
  | none =>
    cases (lookupEntry "actorID" members).bind Json.string? with
    | some actor =>
      cases lookupEntry "type" members with
      | none => rfl
      | some tag =>
        dsimp only
        cases ReferenceType.ofJson? tag with
        | none => rfl
        | some type => rfl
    | none =>
      cases (lookupEntry "type" members).bind Json.string? with
      | none => rfl
      | some name =>
        dsimp only
        by_cases hknown : (ReferenceType.ofName? name).isSome
        · rw [if_pos hknown, if_pos hknown]
          exact ofGripJson_eq index objects (.object members)
        · rw [if_neg hknown, if_neg hknown]
          cases Literal.ofJson? (.object members) with
          | none => rfl
          | some value => rfl

/-- An argument is read as it is by itself, whatever the table holds. -/
theorem ofJson_eq (value : Json) :
    ofJson index objects value =
      ReadArgument.entered index objects (ReadArgument.ofJson value) := by
  cases value with
  | object members => exact ofMembers_eq index objects members
  | _ => rfl

/-- What an argument is read as, or why it is refused, does not depend on the table. -/
theorem ofJson_independent (objects' : ObjectTable) (value : Json) :
    (ofJson index objects value).map Prod.fst = (ofJson index objects' value).map Prod.fst := by
  rw [ofJson_eq, ofJson_eq]
  cases ReadArgument.ofJson value with
  | error fault => rfl
  | ok read => rfl

/-- Arguments are read as each of them is by itself, and their descriptions are added to the
    table from left to right. -/
theorem listOfJson_eq (values : List Json) :
    listOfJson index objects values =
      (ReadArgument.listOfJson index values).map fun reads =>
        (reads.map ReadArgument.argument,
          (reads.filterMap ReadArgument.described).foldl .add objects) := by
  -- each argument meets another table, so the induction is for all of them at once
  induction values generalizing index objects with
  | nil => rfl
  | cons value rest ih =>
    rw [listOfJson, ReadArgument.listOfJson, ofJson_eq]
    cases ReadArgument.ofJson value with
    | error fault => rfl
    | ok read =>
      simp only [ReadArgument.entered, ih]
      cases ReadArgument.listOfJson (index + 1) rest with
      | error cause => rfl
      | ok reads =>
        cases hdescribed : read.described with
        | none => simp [Except.map, hdescribed]
        | some grip => simp [Except.map, hdescribed]

end Argument

namespace Packet

/-- The arguments of a packet, each read by itself. -/
def readEach (packet : Packet) : Except Malformation (List ReadArgument) :=
  match packet.arguments with
  | none => .error .missingArguments
  | some values => ReadArgument.listOfJson 0 values

/-- The table of a packet is that of its list of objects and then of what its arguments
    describe. -/
theorem readArguments_eq (packet : Packet) :
    packet.readArguments =
      packet.readEach.map fun reads =>
        (reads.map ReadArgument.argument, ObjectTable.ofList
          (packet.objects.getD [] ++ reads.filterMap ReadArgument.described)) := by
  unfold readArguments readEach
  cases packet.arguments with
  | none => rfl
  | some values =>
    simp only [Argument.listOfJson_eq, ObjectTable.ofList, List.foldl_append]

/-- The record that the fields of a packet make with what was read from some of them. -/
def record (packet : Packet) (kind : Kind) (arguments : List ReadArgument)
    (timestamp : Timestamp) : Record where
  kind := kind
  arguments := arguments.map ReadArgument.argument
  location := {
    filename := packet.filename.getD ""
    lineNumber := packet.lineNumber.getD 0
    columnNumber := packet.columnNumber.getD 0
    sourceId := packet.sourceId }
  timestamp := timestamp
  innerWindowId := packet.innerWindowId
  styles := packet.styles.getD []
  resourceType := packet.resourceType.getD consoleMessage
  isAlreadyExistingResource := packet.isAlreadyExistingResource
  objects := ObjectTable.ofList
    (packet.objects.getD [] ++ arguments.filterMap ReadArgument.described)

/-- A packet makes the record of its arguments, each read by itself. -/
theorem toRecord_eq (packet : Packet) :
    packet.toRecord = (do
      let level ← packet.readLevel
      let reads ← packet.readEach
      let kind ← Kind.ofPacket level packet
      let timestamp ← packet.timestamp
      return packet.record kind reads timestamp) := by
  unfold toRecord
  rw [readArguments_eq]
  cases packet.readLevel with
  | error cause => rfl
  | ok level =>
    cases packet.readEach with
    | error cause => rfl
    | ok reads => rfl

end Packet

end Console
