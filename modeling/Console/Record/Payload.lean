import Console.Json.Parts

/-! # What a call carries beside its arguments

    The place of the call, captured stack frames, and the states of counters and timers.
    Counting and timing are the producer's; a record only repeats what it was told.
-/

namespace Console

/-- Where a call was made. -/
structure Location where
  filename : String := ""
  lineNumber : UInt32 := 0
  columnNumber : UInt32 := 0
  sourceId : Option String := none
  deriving DecidableEq

/-- A frame of a captured stack. -/
structure StackFrame where
  filename : String
  functionName : String
  lineNumber : UInt32
  columnNumber : UInt32
  sourceId : Option String
  deriving DecidableEq

/-- A captured stack, innermost frame first. -/
abbrev Stack : Type := List StackFrame

/-- The state of a counter. -/
structure Counter where
  label : String
  count : Option UInt64
  error : Option String
  deriving DecidableEq

/-- The state of a timer; the duration is in milliseconds. -/
structure Timer where
  name : String
  duration : Option Binary64
  error : Option String
  deriving DecidableEq

/-! ### As JSON -/

/-- The place as JSON. -/
def Location.toJson (l : Location) : Json :=
  .object ([("filename", .string l.filename), ("lineNumber", .nat l.lineNumber.toNat),
    ("columnNumber", .nat l.columnNumber.toNat)]
    ++ Json.optional "sourceId" (l.sourceId.map .string))

namespace StackFrame

/-- The frame as JSON. -/
def toJson (f : StackFrame) : Json :=
  .object ([("filename", .string f.filename), ("functionName", .string f.functionName),
    ("lineNumber", .nat f.lineNumber.toNat), ("columnNumber", .nat f.columnNumber.toNat)]
    ++ Json.optional "sourceId" (f.sourceId.map .string))

/-- Reads a frame. -/
def ofJson? (value : Json) : Option StackFrame := do
  let parts ← Parts.ofJson? 5 value
  return {
    filename := ← parts.defaulted 0 "filename" Json.string? ""
    functionName := ← parts.defaulted 1 "functionName" Json.string? ""
    lineNumber := ← parts.defaulted 2 "lineNumber" Json.uint32? 0
    columnNumber := ← parts.defaulted 3 "columnNumber" Json.uint32? 0
    sourceId := ← parts.maybe 4 "sourceId" Json.string? }

end StackFrame

namespace Counter

/-- The counter as JSON. -/
def toJson (c : Counter) : Json :=
  .object ([("label", .string c.label)]
    ++ Json.optional "count" (c.count.map fun n => .nat n.toNat)
    ++ Json.optional "error" (c.error.map .string))

/-- Reads a counter. -/
def ofJson? (value : Json) : Option Counter := do
  let parts ← Parts.ofJson? 3 value
  return {
    label := ← parts.needed 0 "label" Json.string?
    count := ← parts.maybe 1 "count" Json.uint64?
    error := ← parts.maybe 2 "error" Json.string? }

end Counter

namespace Timer

/-- The timer as JSON. -/
def toJson (t : Timer) : Json :=
  .object ([("name", .string t.name)]
    ++ Json.optional "duration" (t.duration.map .real)
    ++ Json.optional "error" (t.error.map .string))

/-- Reads a timer. -/
def ofJson? (value : Json) : Option Timer := do
  let parts ← Parts.ofJson? 3 value
  return {
    name := ← parts.needed 0 "name" Json.string?
    duration := ← parts.maybe 1 "duration" Json.real?
    error := ← parts.maybe 2 "error" Json.string? }

end Timer

end Console
