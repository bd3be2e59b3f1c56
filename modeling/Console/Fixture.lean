import Console.Json.Parser
import Console.Json.Printer
import Console.Store
import Console.Text.Unicode

/-! # Fixtures

    A fixture is the text of a store, in one of two layouts:

    - map: one object that maps keys to packets,
    - lines: one object with `key` and `packet` a line, blank lines aside.

    A text whose first value is followed by anything is taken for lines, and so is one
    object with exactly a string `key` and a `packet`; every other text is a map. The
    order of a fixture is the order of the store.
-/

namespace Console

/-- Where the text of a fixture comes from. -/
inductive Origin where
  | input
  | file (path : String)
  deriving DecidableEq

/-- The origin that an argument names: a single hyphen stands for the input. -/
def Origin.ofArgument (argument : String) : Origin :=
  if argument = "-" then input else file argument

/-- The origin as messages name it. -/
def Origin.text : Origin → String
  | input => "<stdin>"
  | file path => path

/-- Why a fixture is refused. -/
inductive FixtureFault where
  /-- The text cannot be had from its origin. -/
  | unreadable (origin : Origin)
  | json
  | jsonLine (line : Nat)
  | entry (line : Nat)
  | record (key : String) (fault : Fault)

/-- The wording of a fixture fault. -/
def FixtureFault.message : FixtureFault → String
  | unreadable origin => "cannot read " ++ origin.text ++ ": " ++ detail
  | json => "fixture is not valid JSON: " ++ detail
  | jsonLine line => "line " ++ toString line ++ ": not valid JSON: " ++ detail
  | entry line =>
    "line " ++ toString line ++ ": expected an object with \"key\" and \"packet\""
  | record key fault => "record " ++ quoted key ++ ": " ++ fault.message

namespace Fixture

/-! ### Layouts -/

/-- Whether an object is an entry of the lines layout and nothing more. -/
def isEntry : Json → Bool
  | .object members =>
    members.length == 2 && ((lookupEntry "key" members).bind Json.string?).isSome
      && (lookupEntry "packet" members).isSome
  | _ => false

/-- Whether a value ends by itself, whatever follows. -/
def isDelimited : Json → Bool
  | .string _ | .array _ | .object _ => true
  | _ => false

/-- Whether what follows a number or a word sets it off. -/
def endsValue : List Char → Bool
  | [] => true
  | c :: _ => Json.isSpace c || ['"', '[', ']', '\x7b', '\x7d', ',', ':'].contains c

/-- Whether a text is laid out in lines. -/
def isLines (text : String) : Bool :=
  match Json.readLeading? Json.nesting text.toList with
  | none => false
  | some (value, rest) =>
    if !isDelimited value && !endsValue rest then false
    else if (Json.skipSpace rest).isEmpty then isEntry value
    else true

/-! ### Reading -/

/-- Stores a packet; a fault is named by its key. -/
def ingest (store : Store) (key : String) (packet : Json) : Except FixtureFault Store :=
  match store.ingest key packet with
  | (.ok (), store) => .ok store
  | (.error fault, _) => .error (.record key fault)

/-- Stores entries from first to last. -/
def ingestAll (store : Store) : List (String × Json) → Except FixtureFault Store
  | [] => .ok store
  | (key, packet) :: rest => do
    let store ← ingest store key packet
    ingestAll store rest

/-- Reads a fixture in the map layout. -/
def readMap (mode : InsertMode) (text : String) : Except FixtureFault Store :=
  match Json.parseMembers? text with
  | none => .error .json
  | some entries => ingestAll { mode := mode } entries

/-- The lines of a text, without their line breaks; a final break starts no line.
    `current` is the line so far, last character first. -/
def splitLines (current : List Char) : List Char → List (List Char)
  | [] => if current.isEmpty then [] else [current.reverse]
  | '\n' :: rest =>
    let line := match current with
      | '\r' :: line => line
      | line => line
    line.reverse :: splitLines [] rest
  | c :: rest => splitLines (c :: current) rest

/-- Reads the entry of a line. -/
def entryOfLine (number : Nat) (line : List Char) : Except FixtureFault (String × Json) :=
  match Json.parse? (String.ofList line) with
  | none => .error (.jsonLine number)
  | some value =>
    match (value.member? "key").bind Json.string?, value.member? "packet" with
    | some key, some packet => .ok (key, packet)
    | _, _ => .error (.entry number)

/-- Stores the entries of lines, the first of which has the given number. -/
def ingestLines (store : Store) (number : Nat) : List (List Char) → Except FixtureFault Store
  | [] => .ok store
  | line :: rest =>
    if line.all Unicode.blank.contains then ingestLines store (number + 1) rest
    else do
      let (key, packet) ← entryOfLine number line
      let store ← ingest store key packet
      ingestLines store (number + 1) rest

/-- Reads a fixture in the lines layout. -/
def readLines (mode : InsertMode) (text : String) : Except FixtureFault Store :=
  ingestLines { mode := mode } 1 (splitLines [] text.toList)

/-- Reads a fixture in either layout. -/
def read (mode : InsertMode) (text : String) : Except FixtureFault Store :=
  if isLines text then readLines mode text else readMap mode text

/-- Reads the text had from an origin. -/
def load (origin : Origin) (mode : InsertMode) : Option String → Except FixtureFault Store
  | none => .error (.unreadable origin)
  | some text => read mode text

/-! ### Writing -/

/-- The store in the map layout, indented. -/
def writeMap (store : Store) : String :=
  (Json.object (store.entries.map fun entry => (entry.1, entry.2.toPacket))).pretty ++ "\n"

/-- One entry of the lines layout. -/
def writeEntry (key : String) (record : Record) : String :=
  (Json.object [("key", .string key), ("packet", record.toPacket)]).compact ++ "\n"

/-- The store in the lines layout. -/
def writeLines (store : Store) : String :=
  String.join (store.entries.map fun entry => writeEntry entry.1 entry.2)

end Fixture

end Console
