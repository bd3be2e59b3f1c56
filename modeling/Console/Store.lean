import Console.Record.Packet

/-! # Stores of records

    A store keeps records under keys in the order in which the keys were first used,
    which is the order of replay. Using a key again replaces its record in place, or is
    refused where the store is strict. A packet that is malformed is refused before its
    key is looked at, and whatever is refused leaves the store as it was.
-/

namespace Console

/-- What happens to a key that is used again. -/
inductive InsertMode where
  | overwrite
  | strict
  deriving DecidableEq

/-- The name of a mode. -/
def InsertMode.name : InsertMode → String
  | overwrite => "overwrite"
  | strict => "strict"

/-- The mode with the given name. -/
def InsertMode.ofName? : String → Option InsertMode
  | "overwrite" => some overwrite
  | "strict" => some strict
  | _ => none

/-- Records under keys. -/
structure Store where
  mode : InsertMode := .overwrite
  records : OrderedMap String Record := .empty

namespace Store

/-- Stores a record under a key: what that comes to, and the store afterwards. -/
def put (store : Store) (key : String) (record : Record) : Except Fault Unit × Store :=
  if store.mode = .strict ∧ store.records.contains key then (.error (.duplicateKey key), store)
  else (.ok (), { store with records := store.records.insert key record })

/-- Reads a packet and stores its record under a key: what that comes to, and the store
    afterwards. -/
def ingest (store : Store) (key : String) (packet : Json) : Except Fault Unit × Store :=
  match Record.ofPacket packet with
  | .error fault => (.error fault, store)
  | .ok record => store.put key record

/-- The keys in order. -/
def keys (store : Store) : List String := store.records.keys

/-- The keys with their records, in order. -/
def entries (store : Store) : List (String × Record) := store.records.entries

/-- The record under a key. -/
def get? (store : Store) (key : String) : Option Record := store.records.get? key

/-- Whether there is a record under a key. -/
def contains (store : Store) (key : String) : Bool := store.records.contains key

/-- The number of records. -/
def size (store : Store) : Nat := store.records.size

/-- Whether two stores hold equal records under the same keys in the same order. -/
def same (x y : Store) : Bool :=
  x.keys == y.keys && (x.entries.zip y.entries).all fun pair => pair.1.2.same pair.2.2

end Store

end Console
