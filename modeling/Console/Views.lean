import Console.Message.Basic
import Console.Store

/-! # Views of a store

    Exporting a store prepares its records one after the other. For each it inserts, under
    its key, into three maps:

    - `raw`: the record as stored,
    - `packets`: the record with its references resolved, or why that failed,
    - `prepared`: the message made of it, or the same fault.

    A record that cannot be resolved keeps its place and draws no id. The maps are shown as
    three views, each of which has the keys of `raw`.
-/

namespace Console

/-- An exported store. -/
structure Exported where
  raw : OrderedMap String Record := .empty
  packets : OrderedMap String (Except Fault ResolvedRecord) := .empty
  prepared : OrderedMap String (Except Fault Message) := .empty

/-! ### Exporting -/

/-- The message of a record that was resolved, with the ids after it: a message draws one,
    and a fault stays what it is. -/
def settle (ids : IdSource) (packet : Except Fault ResolvedRecord) :
    Except Fault Message × IdSource :=
  match packet with
  | .error fault => (.error fault, ids)
  | .ok packet =>
    let (id, ids) := ids.next
    (.ok (packet.message id), ids)

/-- Inserts a record with what its resolution came to, and the message made of that. -/
def Exported.insert (e : Exported) (ids : IdSource) (key : String) (record : Record)
    (packet : Except Fault ResolvedRecord) : Exported × IdSource :=
  let (message, ids) := settle ids packet
  ({ raw := e.raw.insert key record
     packets := e.packets.insert key packet
     prepared := e.prepared.insert key message }, ids)

/-- Inserts entries whose records are resolved one after the other by `resolve`. -/
def exportEntries {σ : Type} (resolve : σ → Record → Except Fault ResolvedRecord × σ)
    (e : Exported) (ids : IdSource) (r : σ) : List (String × Record) → Exported × IdSource × σ
  | [] => (e, ids, r)
  | (key, record) :: rest =>
    let (packet, r) := resolve r record
    let (e, ids) := e.insert ids key record packet
    exportEntries resolve e ids r rest

/-- Resolves a record from its own object table. -/
def Record.resolveOwn (limits : Limits) (record : Record) : Except Fault ResolvedRecord :=
  (record.resolve (⟨record.objects, limits, .empty⟩ : TableResolver)).1

/-- Exports a store, each record being resolved from its own object table. -/
def Store.export (store : Store) (ids : IdSource) (limits : Limits) : Exported × IdSource :=
  let (e, ids, _) :=
    exportEntries (fun (_ : Unit) record => (record.resolveOwn limits, ())) {} ids () store.entries
  (e, ids)

/-! ### Looking up -/

namespace Exported

/-- The keys in order. -/
def keys (e : Exported) : List String := e.raw.keys

/-- The number of records. -/
def size (e : Exported) : Nat := e.raw.size

/-- The record of a key as it is stored. -/
def record? (e : Exported) (key : String) : Option Record := e.raw.get? key

/-- The resolved record of a key, if there is one. -/
def packet? (e : Exported) (key : String) : Option ResolvedRecord :=
  (e.packets.get? key).bind Except.toOption

/-- The message of a key, if there is one. -/
def message? (e : Exported) (key : String) : Option Message :=
  (e.prepared.get? key).bind Except.toOption

end Exported

/-- The fault that came instead of a value, if there is one. -/
def faultOf? {α : Type} : Except Fault α → Option Fault
  | .ok _ => none
  | .error fault => some fault

namespace Exported

/-- Why there is no message for a key, if there is none. -/
def fault? (e : Exported) (key : String) : Option Fault := (e.prepared.get? key).bind faultOf?

/-- The keys whose records could not be prepared, with their faults. -/
def failures (e : Exported) : List (String × Fault) :=
  e.prepared.entries.filterMap fun (key, result) =>
    (faultOf? result).map fun fault => (key, fault)

/-- The keys whose records could be prepared, with their messages. -/
def messages (e : Exported) : List (String × Message) :=
  e.prepared.entries.filterMap fun (key, result) =>
    result.toOption.map fun message => (key, message)

/-- Whether the three maps have the same keys in the same order. -/
def viewsAligned (e : Exported) : Bool :=
  e.raw.keys == e.packets.keys && e.raw.keys == e.prepared.keys

end Exported

/-! ### Views -/

/-- The views of an exported store. -/
inductive View where
  | raw
  | packets
  | messages
  deriving DecidableEq

/-- What a view shows in place of a record that could not be prepared. -/
def Fault.toJson (fault : Fault) : Json := .object [("error", .string fault.message)]

/-- What a view shows of the result that a map holds for a key, null if it holds none. -/
def shownResult {α : Type} (toJson : α → Json) : Option (Except Fault α) → Json
  | some (.ok value) => toJson value
  | some (.error fault) => fault.toJson
  | none => .null

namespace Exported

/-- What a view shows of a record and its key. -/
def shown (e : Exported) (view : View) (key : String) (record : Record) : Json :=
  match view with
  | .raw => record.toPacket
  | .packets => shownResult ResolvedRecord.toJson (e.packets.get? key)
  | .messages => shownResult Message.toJson (e.prepared.get? key)

/-- The members of a view. -/
def members (e : Exported) (view : View) : List (String × Json) :=
  e.raw.entries.map fun (key, record) => (key, e.shown view key record)

/-- A view as a JSON object. -/
def toJson (e : Exported) (view : View) : Json := .object (e.members view)

end Exported

end Console
