import Console.Proofs.Ids
import Console.Proofs.Resolution.Reload
import Console.Proofs.Slots

/-! # Exporting slot by slot

    An exported store has a slot for each of its entries, in order, with its parts in the
    three maps. Each slot holds what its record comes to by itself, prepared under the next
    id if it can be resolved and under none if it cannot, so that the messages have
    consecutive ids whatever fails between them:

    - `Slot.Prepares`: what a slot holds of a record, and what the views show of it,
    - `exportOwn_ids`, `prepares_of_exportOwn`: the ids and the slots of a whole export,
    - `Exported.Holds.keys_perm`: each key is among the failures or among the messages,
    - `export_spec`: an export as a whole,
    - `Store.slot_independent`: a record has the same slot in every store, but for the id.
-/

namespace Console

/-! ### One slot -/

variable {limits : Limits} {ids : IdSource} {record : Record}

/-- The slot of a record that is resolved from its own table, and the ids after it. -/
def Record.ownSlot (limits : Limits) (ids : IdSource) (record : Record) : Slot × IdSource :=
  settleSlot ids record (record.resolveOwn limits)

/-- Says that a slot holds its record as it comes out by itself under the next id: either the
    fault of resolving it from its own table, twice, or the resolved record and the message
    that preparing it gives; and that the views show no other. -/
def Slot.Prepares (limits : Limits) (ids : IdSource) (slot : Slot) : Prop :=
  match slot.record.resolveOwn limits with
  | .error fault =>
    slot.packet = .error fault ∧ slot.message = .error fault ∧
      slot.toJson .packets = fault.toJson ∧ slot.toJson .messages = fault.toJson ∧
      slot.record.prepareOwn limits ids = (.error fault, ids)
  | .ok packet =>
    ∃ message, slot.packet = .ok packet ∧ slot.message = .ok message ∧
      slot.toJson .packets = packet.toJson ∧ slot.toJson .messages = message.toJson ∧
      slot.record.prepareOwn limits ids = (.ok message, ids.next.2) ∧ message.id = ids.next.1

/-- Preparing a record from its own table settles what resolving it gives. -/
theorem Record.prepareOwn_eq_settle (limits : Limits) (ids : IdSource) (record : Record) :
    record.prepareOwn limits ids = settle ids (record.resolveOwn limits) := by
  unfold prepareOwn prepare resolveOwn
  cases record.resolve (⟨record.objects, limits, .empty⟩ : TableResolver) with
  | mk result after =>
    cases result with
    | error => rfl
    | ok => rfl

theorem Record.prepares_ownSlot (limits : Limits) (ids : IdSource) (record : Record) :
    (record.ownSlot limits ids).1.Prepares limits ids := by
  have hprepare := record.prepareOwn_eq_settle limits ids
  unfold Slot.Prepares ownSlot settleSlot
  cases hresolve : record.resolveOwn limits with
  | error fault =>
    rw [hresolve] at hprepare
    exact ⟨rfl, rfl, rfl, rfl, hprepare⟩
  | ok packet =>
    rw [hresolve] at hprepare
    exact ⟨packet.message ids.next.1, rfl, rfl, rfl, rfl, hprepare, rfl⟩

/-- The ids of the messages that slots hold. -/
def messageIds (slots : List (String × Slot)) : List String :=
  slots.filterMap fun entry => entry.2.message?.map Message.id

/-- A slot draws an id for its message, and none without one. -/
theorem Record.draw_ownSlot (limits : Limits) (ids : IdSource) (record : Record) (key : String) :
    ids.draw (messageIds [(key, (record.ownSlot limits ids).1)]).length =
      (messageIds [(key, (record.ownSlot limits ids).1)], (record.ownSlot limits ids).2) := by
  unfold ownSlot settleSlot
  cases record.resolveOwn limits with
  | error => rfl
  | ok => rfl

/-! ### All slots -/

/-- Exporting entries whose records are resolved from their own tables: the slots, and the
    ids after them. -/
def exportOwn (limits : Limits) (ids : IdSource) : List (String × Record) →
    List (String × Slot) × IdSource
  | [] => ([], ids)
  | (key, record) :: rest =>
    let (slots, after) := exportOwn limits (record.ownSlot limits ids).2 rest
    ((key, (record.ownSlot limits ids).1) :: slots, after)

theorem exportSlots_eq_exportOwn (limits : Limits) (ids : IdSource)
    (entries : List (String × Record)) :
    exportSlots (fun (_ : Unit) record => (record.resolveOwn limits, ())) ids () entries =
      ((exportOwn limits ids entries).1, (exportOwn limits ids entries).2, ()) := by
  induction entries generalizing ids with
  | nil => rfl
  | cons entry rest ih => simp only [exportSlots, exportOwn, ih, Record.ownSlot]

theorem coherent_exportOwn (limits : Limits) (ids : IdSource) (entries : List (String × Record)) :
    ∀ entry ∈ (exportOwn limits ids entries).1, entry.2.Coherent := by
  have hcoherent := coherent_exportSlots
    (fun (_ : Unit) (record : Record) => (record.resolveOwn limits, ())) ids () entries
  rwa [exportSlots_eq_exportOwn] at hcoherent

/-- An export holds the slots of its records, and draws their ids. -/
theorem holds_export (store : Store) (ids : IdSource) (limits : Limits) :
    (store.export ids limits).1.Holds (exportOwn limits ids store.entries).1 ∧
      (store.export ids limits).2 = (exportOwn limits ids store.entries).2 := by
  obtain ⟨hholds, hafter⟩ := Exported.holds_exportEntries
    (fun (_ : Unit) record => (record.resolveOwn limits, ())) ids () store
  rw [exportSlots_eq_exportOwn] at hholds hafter
  exact ⟨hholds, congrArg Prod.fst hafter⟩

/-- Every entry keeps its slot. -/
theorem exportOwn_records (limits : Limits) (ids : IdSource) (entries : List (String × Record)) :
    (exportOwn limits ids entries).1.map (fun entry => (entry.1, entry.2.record)) = entries := by
  induction entries generalizing ids with
  | nil => rfl
  | cons entry rest ih =>
    simp only [exportOwn, List.map_cons, ih]
    rfl

theorem messageIds_cons (entry : String × Slot) (rest : List (String × Slot)) :
    messageIds (entry :: rest) = messageIds [entry] ++ messageIds rest :=
  List.filterMap_append (l := [entry])

/-- The ids of the messages are those drawn, one after the other. -/
theorem exportOwn_ids (limits : Limits) (ids : IdSource) (entries : List (String × Record)) :
    ids.draw (messageIds (exportOwn limits ids entries).1).length =
      (messageIds (exportOwn limits ids entries).1, (exportOwn limits ids entries).2) := by
  induction entries generalizing ids with
  | nil => rfl
  | cons entry rest ih =>
    obtain ⟨key, record⟩ := entry
    simp only [exportOwn]
    rw [messageIds_cons, List.length_append, IdSource.draw_add, record.draw_ownSlot, ih]

/-- Each slot shows its record as prepared under the id that follows those of the messages
    before it. -/
theorem prepares_of_exportOwn {entries : List (String × Record)} {before rest : List (String × Slot)}
    {key : String} {slot : Slot}
    (h : (exportOwn limits ids entries).1 = before ++ (key, slot) :: rest) :
    slot.Prepares limits (ids.draw (messageIds before).length).2 := by
  induction entries generalizing ids before with
  | nil =>
    rw [exportOwn, List.nil_eq_append_iff] at h
    exact absurd h.2 (List.cons_ne_nil _ _)
  | cons entry others ih =>
    obtain ⟨name, record⟩ := entry
    simp only [exportOwn] at h
    cases before with
    | nil =>
      cases h
      exact record.prepares_ownSlot limits ids
    | cons first before =>
      -- the first slot has drawn an id or none, and the rest goes on after it
      rw [List.cons_append, List.cons.injEq] at h
      obtain ⟨rfl, hrest⟩ := h
      rw [messageIds_cons, List.length_append, IdSource.draw_add, record.draw_ownSlot]
      exact ih hrest

/-! ### Failures and messages -/

/-- The keys of what some slots give are the keys of those slots. -/
theorem keys_filterMap {α : Type} (give : Slot → Option α) (slots : List (String × Slot)) :
    (slots.filterMap fun entry => (give entry.2).map fun x => (entry.1, x)).map Prod.fst =
      (slots.filter fun entry => (give entry.2).isSome).map Prod.fst := by
  induction slots with
  | nil => rfl
  | cons entry rest ih =>
    cases hgive : give entry.2 with
    | none => simp [hgive, ih]
    | some x => simp [hgive, ih]

namespace Exported.Holds

variable {e : Exported} {slots : List (String × Slot)}

theorem keys_failures (h : e.Holds slots) :
    e.failures.map Prod.fst = (slots.filter fun entry => !entry.2.message?.isSome).map Prod.fst := by
  rw [h.failures_eq, keys_filterMap]
  congr 2
  funext entry
  rw [← Slot.isNone_fault?]
  cases entry.2.fault? with
  | none => rfl
  | some => rfl

theorem keys_messages (h : e.Holds slots) :
    e.messages.map Prod.fst = (slots.filter fun entry => entry.2.message?.isSome).map Prod.fst := by
  rw [h.messages_eq, keys_filterMap]

/-- Each key is among the messages or among the failures. -/
theorem keys_perm (h : e.Holds slots) :
    (e.messages.map Prod.fst ++ e.failures.map Prod.fst).Perm e.keys := by
  rw [h.keys_messages, h.keys_failures, h.keys_eq, ← List.map_append]
  exact (List.filter_append_perm _ slots).map Prod.fst

theorem sublist_messages (h : e.Holds slots) : (e.messages.map Prod.fst).Sublist e.keys := by
  rw [h.keys_messages, h.keys_eq]
  exact List.filter_sublist.map Prod.fst

theorem sublist_failures (h : e.Holds slots) : (e.failures.map Prod.fst).Sublist e.keys := by
  rw [h.keys_failures, h.keys_eq]
  exact List.filter_sublist.map Prod.fst

theorem ids_messages (h : e.Holds slots) :
    e.messages.map (fun entry => entry.2.id) = messageIds slots := by
  rw [h.messages_eq, messageIds, List.map_filterMap]
  congr 1
  funext entry
  cases hmessage : entry.2.message? with
  | none => simp only [Option.map_none]
  | some => simp only [Option.map_some]

theorem length_messages (h : e.Holds slots) : e.messages.length = (messageIds slots).length := by
  rw [← h.ids_messages, List.length_map]

end Exported.Holds

/-! ### Exports -/

/-- The raw map of an export is the map of the store. -/
theorem raw_export (store : Store) (ids : IdSource) (limits : Limits) :
    (store.export ids limits).1.raw = store.records := by
  refine OrderedMap.ext_entries ?_
  rw [(holds_export store ids limits).1.raw]
  exact exportOwn_records limits ids store.entries

/-- An exported store has the keys of the store, in its order. -/
theorem keys_export (store : Store) (ids : IdSource) (limits : Limits) :
    (store.export ids limits).1.keys = store.keys := by
  rw [Exported.keys, raw_export]
  rfl

/-- The ids of the messages are those drawn, and the source goes on after them. -/
theorem draw_export (store : Store) (ids : IdSource) (limits : Limits) :
    ids.draw (store.export ids limits).1.messages.length =
      ((store.export ids limits).1.messages.map (fun entry => entry.2.id),
        (store.export ids limits).2) := by
  obtain ⟨hholds, hafter⟩ := holds_export store ids limits
  rw [hholds.length_messages, hholds.ids_messages, hafter]
  exact exportOwn_ids limits ids store.entries

/-- Exporting a store fills three aligned maps, the first of which is the store's own; all
    views have its keys in its order and show the same slots. Each slot holds its record as
    it is prepared by itself, under the id that follows those of the messages before it; the
    failures and the messages share the keys between them, each in the order of the store;
    and the ids drawn are those of the messages. Numbered ids are those that follow the start
    modulo `2 ^ 64`, and so without gaps or repeats as long as they stay below. -/
theorem export_spec (store : Store) (ids : IdSource) (limits : Limits) :
    let exported := (store.export ids limits).1
    let after := (store.export ids limits).2
    let n := exported.messages.length
    exported.viewsAligned ∧ exported.raw = store.records ∧
    (∀ view, (exported.members view).map Prod.fst = store.keys) ∧
    (∀ view, exported.members view =
      exported.slots.map fun entry => (entry.1, entry.2.toJson view)) ∧
    exported.slots.map (fun entry => (entry.1, entry.2.record)) = store.entries ∧
    (∀ before key slot rest, exported.slots = before ++ (key, slot) :: rest →
      exported.packets.get? key = some slot.packet ∧
      exported.prepared.get? key = some slot.message ∧
      slot.Prepares limits (ids.draw (messageIds before).length).2) ∧
    (exported.messages.map Prod.fst ++ exported.failures.map Prod.fst).Perm store.keys ∧
    (exported.messages.map Prod.fst).Sublist store.keys ∧
    (exported.failures.map Prod.fst).Sublist store.keys ∧ store.keys.Nodup ∧
    ids.draw n = (exported.messages.map (fun entry => entry.2.id), after) ∧
    ∀ start : UInt64, ids = .sequential start →
      exported.messages.map (fun entry => entry.2.id) =
          (List.range n).map (fun i => toString ((start.toNat + i) % 2 ^ 64)) ∧
        after.next.1 = toString ((start.toNat + n) % 2 ^ 64) ∧
        (start.toNat + n < 2 ^ 64 →
          exported.messages.map (fun entry => entry.2.id) =
              (List.range n).map (fun i => toString (start.toNat + i)) ∧
            (exported.messages.map fun entry => entry.2.id).Nodup ∧
            after.next.1 = toString (start.toNat + n)) := by
  intro exported after n
  -- the maps hold exactly the slots of the records, which all clauses are read off
  obtain ⟨hholds, -⟩ := holds_export store ids limits
  have hslots : exported.slots = (exportOwn limits ids store.entries).1 := hholds.slots_eq
  have hkeys : exported.keys = store.keys := keys_export store ids limits
  have hids : ids.draw n = (exported.messages.map (fun entry => entry.2.id), after) :=
    draw_export store ids limits
  refine ⟨?_, raw_export store ids limits, ?_, ?_, ?_, ?_, ?_, ?_, ?_, store.records.nodup, hids, ?_⟩
  · exact Exported.viewsAligned_iff.2 (Exported.aligned_empty.exportEntries ids () store.entries)
  · intro view
    rw [← hkeys, Exported.members, List.map_map]
    rfl
  · intro view
    rw [hslots]
    exact hholds.members_eq view
  · rw [hslots]
    exact exportOwn_records limits ids store.entries
  · intro before key slot rest hsplit
    rw [hslots] at hsplit
    obtain ⟨hpacket, hmessage⟩ := hholds.get?_of_split hsplit
    exact ⟨hpacket, hmessage, prepares_of_exportOwn hsplit⟩
  · exact hkeys ▸ hholds.keys_perm
  · exact hkeys ▸ hholds.sublist_messages
  · exact hkeys ▸ hholds.sublist_failures
  · rintro start rfl
    exact IdSource.sequential_of_draw hids

/-- A call with an object that its table describes. -/
def Record.described : Record :=
  { Record.mistyped with arguments := [.reference ⟨⟨"a"⟩, .object⟩] }

/-- A store with a call that fails before two that do not. -/
def Store.failingFirst : Store :=
  { records := .ofList [("broken", .mistyped), ("first", .described), ("call", .described)] }

/-- The call that fails draws no number. The others have the numbers that follow the start,
    also where the last number of 64 bits is among them. -/
theorem export_failingFirst :
    let exported (start : UInt64) := Store.failingFirst.export (.sequential start) {}
    let ids (start : UInt64) := (exported start).1.messages.map fun entry => entry.2.id
    ids 7 = ["7", "8"] ∧ (ids 7).Nodup ∧ (exported 7).2.next.1 = "9" ∧
      ids 18446744073709551615 = ["18446744073709551615", "0"] := by
  intro exported ids
  have hcount : ∀ start, (exported start).1.messages.length = 2 := fun _ => rfl
  obtain ⟨-, -, -, -, -, -, -, -, -, -, -, hnumbers⟩ :=
    export_spec Store.failingFirst (.sequential 7) {}
  obtain ⟨-, -, -, -, -, -, -, -, -, -, -, hnumbers'⟩ :=
    export_spec Store.failingFirst (.sequential 18446744073709551615) {}
  obtain ⟨hids, hnodup, hnext⟩ := (hnumbers 7 rfl).2.2 (by rw [hcount 7]; decide)
  have htop := (hnumbers' 18446744073709551615 rfl).1
  rw [hcount 7] at hids hnext
  rw [hcount 18446744073709551615] at htop
  exact ⟨hids, hnodup, hnext, htop⟩

/-! ### One record in two stores -/

/-- The message under another id. -/
def Message.withId (id : String) (m : Message) : Message := { m with id := id }

namespace Slot

/-- The slot with its message, if there is one, under another id. -/
def withId (id : String) (slot : Slot) : Slot :=
  { slot with message := slot.message.map (Message.withId id) }

@[simp] theorem fault?_withId (id : String) (slot : Slot) : (slot.withId id).fault? = slot.fault? :=
  faultOf?_map (Message.withId id) slot.message

@[simp] theorem message?_withId (id : String) (slot : Slot) :
    (slot.withId id).message? = slot.message?.map (Message.withId id) := by
  unfold withId message?
  cases slot.message with
  | error => rfl
  | ok => rfl

end Slot

/-- Whatever ids are to be drawn, the slot of a record is the same but for the id. -/
theorem Record.withId_ownSlot (limits : Limits) (ids ids' : IdSource) (record : Record) (id : String) :
    (record.ownSlot limits ids).1.withId id = (record.ownSlot limits ids').1.withId id := by
  unfold ownSlot settleSlot
  cases record.resolveOwn limits with
  | error => rfl
  | ok => rfl

/-- The records before one decide which id it draws, and nothing else. -/
theorem exists_lookupEntry_exportOwn {entries : List (String × Record)} {key : String}
    (hfound : lookupEntry key entries = some record) (ids : IdSource) :
    ∃ drawn, lookupEntry key (exportOwn limits ids entries).1 = some (record.ownSlot limits drawn).1 := by
  induction entries generalizing ids with
  | nil => cases hfound
  | cons entry rest ih =>
    obtain ⟨name, first⟩ := entry
    by_cases hkey : name = key
    · simp only [lookupEntry, if_pos hkey, Option.some.injEq] at hfound
      subst hfound
      exact ⟨ids, by simp only [exportOwn, lookupEntry, if_pos hkey]⟩
    · simp only [lookupEntry, if_neg hkey] at hfound
      obtain ⟨drawn, hslot⟩ := ih hfound (first.ownSlot limits ids).2
      exact ⟨drawn, by simp only [exportOwn, lookupEntry, if_neg hkey, hslot]⟩

theorem Store.exists_slot {store : Store} {key : String} (hget : store.get? key = some record)
    (limits : Limits) (ids : IdSource) :
    ∃ drawn, (store.export ids limits).1.get? key = some (record.ownSlot limits drawn).1 := by
  obtain ⟨drawn, hslot⟩ := @exists_lookupEntry_exportOwn limits record store.entries key hget ids
  refine ⟨drawn, ?_⟩
  rw [(holds_export store ids limits).1.get?_eq]
  exact hslot

/-- Exports of two stores that hold the same record under a key hold the same of it: what the
    record itself resolves to, with the same message but for the id, and so they show the same
    in every view once the ids are the same. -/
theorem Store.slot_independent {store store' : Store} {key : String} {record : Record}
    (hget : store.get? key = some record) (hget' : store'.get? key = some record)
    (limits : Limits) (ids ids' : IdSource) :
    ∃ slot slot', (store.export ids limits).1.get? key = some slot ∧
      (store'.export ids' limits).1.get? key = some slot' ∧
      slot.record = record ∧ slot'.record = record ∧
      slot.packet = record.resolveOwn limits ∧ slot'.packet = record.resolveOwn limits ∧
      slot.packet? = slot'.packet? ∧ slot.fault? = slot'.fault? ∧
      ∀ id, slot.message?.map (Message.withId id) = slot'.message?.map (Message.withId id) ∧
        ∀ view, (slot.withId id).toJson view = (slot'.withId id).toJson view := by
  obtain ⟨drawn, hslot⟩ := Store.exists_slot hget limits ids
  obtain ⟨drawn', hslot'⟩ := Store.exists_slot hget' limits ids'
  have hsame : ∀ id, (record.ownSlot limits drawn).1.withId id = (record.ownSlot limits drawn').1.withId id :=
    record.withId_ownSlot limits drawn drawn'
  refine ⟨_, _, hslot, hslot', rfl, rfl, rfl, rfl, rfl, ?_, fun id => ⟨?_, ?_⟩⟩
  · simpa only [Slot.fault?_withId] using congrArg Slot.fault? (hsame "")
  · simpa only [Slot.message?_withId] using congrArg Slot.message? (hsame id)
  · intro view
    rw [hsame id]

/-- The call by itself, and after one that fails and one that draws an id. -/
theorem Store.slot_described :
    let alone : Store := { records := .ofList [("call", .described)] }
    let last : Store :=
      { records := .ofList [("broken", .mistyped), ("first", .described), ("call", .described)] }
    let id (store : Store) (start : UInt64) : Option String :=
      (((store.export (.sequential start) {}).1.get? "call").bind Slot.message?).map Message.id
    id alone 1 = some "1" ∧ id last 7 = some "8" ∧
      ∃ slot slot', (alone.export (.sequential 1) {}).1.get? "call" = some slot ∧
        (last.export (.sequential 7) {}).1.get? "call" = some slot' ∧
        slot.packet? = slot'.packet? ∧ slot.packet?.isSome := by
  intro alone last id
  have halone : alone.get? "call" = some Record.described := rfl
  have hlast : last.get? "call" = some Record.described := rfl
  obtain ⟨slot, slot', hslot, hslot', -, -, -, -, hpacket, -, -⟩ :=
    Store.slot_independent halone hlast {} (.sequential 1) (.sequential 7)
  refine ⟨by rfl, by rfl, slot, slot', hslot, hslot', hpacket, ?_⟩
  have hsome : (((alone.export (.sequential 1) {}).1.get? "call").bind Slot.packet?).isSome := by rfl
  rw [hslot] at hsome
  exact hsome

end Console
