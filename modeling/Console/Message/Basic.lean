import Console.Message.Formatted
import Console.Message.Ids
import Console.Record.Packet
import Console.Resolution.Basic

/-! # Prepared messages

    A message is a record made ready to be shown: an id, a severity, a text, and the
    parameters and styles that the text was made of.

    `Record.prepare` resolves the references of a record first; a record that cannot be
    resolved draws no id. Everything but the id then follows from the resolved record
    (`ResolvedRecord.body`).
-/

namespace Console

/-- A record ready to be shown. -/
structure Message where
  id : String
  level : Level
  severity : Severity
  text : String
  parameters : List Parameter
  styles : List String
  location : Location
  timestamp : Timestamp
  innerWindowId : Option UInt64
  counter : Option Counter
  timer : Option Timer
  stack : Option Stack

/-! ### Texts of payloads -/

/-- What a counter shows. -/
def Counter.text (c : Counter) : String :=
  match c.error with
  | none => c.label ++ ": " ++ toString (c.count.getD 0)
  | some "counterDoesntExist" => "Counter “" ++ c.label ++ "” doesn’t exist."
  | some "maxCountersExceeded" => "Too many counters on the page."
  | some other => c.label ++ ": " ++ other

/-- What the error of a timer shows. -/
def Timer.errorText (t : Timer) : String → String
  | "timerAlreadyExists" => "Timer “" ++ t.name ++ "” already exists."
  | "timerDoesntExist" => "Timer “" ++ t.name ++ "” doesn’t exist."
  | "maxTimersExceeded" => "Too many timers on the page."
  | other => t.name ++ ": " ++ other

/-- The time that a timer has run. -/
def Timer.elapsed (t : Timer) : String := (t.duration.getD .zero).text .console ++ "ms"

/-! ### The body of a message -/

/-- The formatted arguments of a message with its severity. -/
structure Body where
  formatted : Formatted
  severity : Severity

namespace ResolvedRecord

/-- A text and, if there is one, a tail after a space. -/
def joined (head tail : String) : String := if tail.isEmpty then head else head ++ " " ++ tail

/-- The arguments without a leading text that repeats the timer's name. -/
def withoutName (name : String) : List Parameter → List Parameter
  | .text value :: rest => if value = name then rest else .text value :: rest
  | parameters => parameters

/-- Arguments shown as the level and the producer's styles demand. -/
def formatArguments (packet : ResolvedRecord) : Formatted :=
  if !packet.record.styles.isEmpty then
    .preStyled packet.arguments packet.record.styles
  else if packet.record.level.expands then .ofArguments packet.arguments
  else .plain packet.arguments

/-- The body of a timer's message: its error as a warning, or else what the timer does. -/
def timed (packet : ResolvedRecord) (timer : Timer) (running : Formatted) : Body :=
  match timer.error with
  | some error => ⟨.ofText (timer.errorText error), .warn⟩
  | none => ⟨running, packet.record.level.severity⟩

/-- The formatted arguments and the severity of a record's message. -/
def content (packet : ResolvedRecord) : Body :=
  let severity := packet.record.level.severity
  match packet.record.kind with
  | .count counter | .countReset counter =>
    ⟨.ofText counter.text, if counter.error.isSome then .warn else severity⟩
  | .time timer => packet.timed timer (.ofText (timer.name ++ ": timer started"))
  | .timeEnd timer =>
    packet.timed timer (.ofText (timer.name ++ ": " ++ timer.elapsed ++ " - timer ended"))
  | .timeLog timer =>
    let extra := Formatted.plain (withoutName timer.name packet.arguments)
    packet.timed timer
      { extra with text := joined (timer.name ++ ": " ++ timer.elapsed) extra.text }
  | .bare .clear => ⟨.ofText "Console was cleared.", severity⟩
  | _ => ⟨packet.formatArguments, severity⟩

/-- What a level makes of the text of its arguments. -/
def levelText (level : Level) (text : String) : String :=
  match level with
  | .assert => if text.isEmpty then "Assertion failed" else "Assertion failed: " ++ text
  | .trace => if text.isEmpty then "console.trace()" else text
  | _ => text

/-- The message of a resolved record under the given id. -/
def message (packet : ResolvedRecord) (id : String) : Message :=
  let record := packet.record
  let body := packet.content
  { id := id
    level := record.level
    severity := body.severity
    text := levelText record.level body.formatted.text
    parameters := body.formatted.parameters
    styles := body.formatted.styles
    location := record.location
    timestamp := record.timestamp
    innerWindowId := record.innerWindowId
    counter := record.kind.counter?
    timer := record.kind.timer?
    stack := record.kind.stack? }

/-- The record's packet with its resolved parameters for arguments and without object
    descriptions. -/
def toJson (packet : ResolvedRecord) : Json :=
  .object (Json.removeMember "objects"
    (packet.record.packetMembers (packet.arguments.map Parameter.toJson)))

end ResolvedRecord

/-! ### Preparation -/

/-- Resolves a record and prepares its message under the next id. Nothing is drawn for a
    record that cannot be resolved. -/
def Record.prepare {σ : Type} [Resolver σ] (record : Record) (ids : IdSource) (r : σ) :
    Except Fault Message × IdSource × σ :=
  match record.resolve r with
  | (.error fault, r) => (.error fault, ids, r)
  | (.ok packet, r) =>
    let (id, ids) := ids.next
    (.ok (packet.message id), ids, r)

/-! ### JSON -/

namespace Message

/-- The message as JSON. -/
def toJson (m : Message) : Json :=
  .object ([("id", .string m.id), ("source", .string "console-api"),
    ("kind", .string m.level.name), ("severity", .string m.severity.name),
    ("text", .string m.text), ("parameters", .array (m.parameters.map Parameter.toJson)),
    ("styles", .array (m.styles.map .string)), ("location", m.location.toJson),
    ("timestamp", .string m.timestamp.text)]
    ++ Json.optional "innerWindowId" (m.innerWindowId.map fun n => .nat n.toNat)
    ++ Json.optional "counter" (m.counter.map Counter.toJson)
    ++ Json.optional "timer" (m.timer.map Timer.toJson)
    ++ Json.optional "stacktrace"
      (m.stack.map fun stack => .array (stack.map StackFrame.toJson)))

end Message

end Console
