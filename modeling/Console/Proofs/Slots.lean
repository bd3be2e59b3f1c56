import Mathlib.Data.List.Basic
import Console.Proofs.OrderedMap
import Console.Views

/-! # The three maps of an export

    An export inserts into three maps side by side. Whatever is inserted, they keep the same
    keys in the same order (`Exported.Aligned.exportEntries`). What they hold of one record
    is its slot; an export of entries with different keys holds exactly the slots that
    preparing the entries one after the other gives (`Exported.Holds.exportEntries`), and so
    everything that is shown of it can be read off that list.

    - `Exported.Aligned.insert`, `Exported.Holds.insert`: one record,
    - `exportSlots`: the slots of entries, as a recursion without maps,
    - `Exported.Holds.get?_eq`, `Exported.Holds.members_eq` and the like: what is shown.
-/

namespace Console

namespace Exported

variable {e : Exported} {σ : Type} {resolve : σ → Record → Except Fault ResolvedRecord × σ}
  {ids : IdSource} {key : String} {record : Record} {packet : Except Fault ResolvedRecord}

/-! ### Aligned maps -/

theorem raw_insert (e : Exported) (ids : IdSource) (key : String) (record : Record)
    (packet : Except Fault ResolvedRecord) :
    (e.insert ids key record packet).1.raw = e.raw.insert key record := rfl

theorem packets_insert (e : Exported) (ids : IdSource) (key : String) (record : Record)
    (packet : Except Fault ResolvedRecord) :
    (e.insert ids key record packet).1.packets = e.packets.insert key packet := rfl

theorem prepared_insert (e : Exported) (ids : IdSource) (key : String) (record : Record)
    (packet : Except Fault ResolvedRecord) :
    (e.insert ids key record packet).1.prepared =
      e.prepared.insert key (settle ids packet).1 := rfl

/-- Says that the three maps have the same keys in the same order. -/
structure Aligned (e : Exported) : Prop where
  packets : e.packets.keys = e.raw.keys
  prepared : e.prepared.keys = e.raw.keys

theorem viewsAligned_iff : e.viewsAligned ↔ e.Aligned := by
  unfold viewsAligned
  rw [Bool.and_eq_true, beq_iff_eq, beq_iff_eq]
  constructor
  · rintro ⟨hpackets, hprepared⟩
    exact ⟨hpackets.symm, hprepared.symm⟩
  · intro h
    exact ⟨h.packets.symm, h.prepared.symm⟩

theorem aligned_empty : ({} : Exported).Aligned := ⟨rfl, rfl⟩

namespace Aligned

/-- Whatever is inserted, be its key new or not, the maps stay aligned. -/
theorem insert (h : e.Aligned) (ids : IdSource) (key : String) (record : Record)
    (packet : Except Fault ResolvedRecord) : (e.insert ids key record packet).1.Aligned where
  packets := by
    rw [packets_insert, raw_insert, OrderedMap.keys_insert, OrderedMap.keys_insert, h.packets]
  prepared := by
    rw [prepared_insert, raw_insert, OrderedMap.keys_insert, OrderedMap.keys_insert, h.prepared]

/-- However many entries are inserted, the maps stay aligned. -/
theorem exportEntries (h : e.Aligned) (ids : IdSource) (r : σ) (entries : List (String × Record)) :
    (Console.exportEntries resolve e ids r entries).1.Aligned := by
  induction entries generalizing e ids r with
  | nil => exact h
  | cons entry rest ih => exact ih (h.insert ids entry.1 entry.2 (resolve r entry.2).1) _ _

end Aligned

end Exported

/-! ### Slots -/

/-- Changing values changes no fault. -/
@[simp] theorem faultOf?_map {α β : Type} (f : α → β) (result : Except Fault α) :
    faultOf? (result.map f) = faultOf? result := by
  cases result with
  | error fault => rfl
  | ok value => rfl

/-- What an export holds of one record. -/
structure Slot where
  record : Record
  packet : Except Fault ResolvedRecord
  message : Except Fault Message

namespace Slot

/-- The resolved record, if there is one. -/
def packet? (slot : Slot) : Option ResolvedRecord := slot.packet.toOption

/-- The message, if the record could be prepared. -/
def message? (slot : Slot) : Option Message := slot.message.toOption

/-- The fault, if the record could not be prepared. -/
def fault? (slot : Slot) : Option Fault := faultOf? slot.message

/-- What a view shows of a slot. -/
def toJson (view : View) (slot : Slot) : Json :=
  match view with
  | .raw => slot.record.toPacket
  | .packets => shownResult ResolvedRecord.toJson (some slot.packet)
  | .messages => shownResult Message.toJson (some slot.message)

/-- A slot has a fault exactly if it has no message. -/
theorem isNone_fault? (slot : Slot) : slot.fault?.isNone = slot.message?.isSome := by
  unfold fault? message?
  cases slot.message with
  | error => rfl
  | ok => rfl

end Slot

namespace Exported

/-- The slot of a key, if all three maps have the key. -/
def get? (e : Exported) (key : String) : Option Slot := do
  let record ← e.raw.get? key
  let packet ← e.packets.get? key
  let message ← e.prepared.get? key
  return ⟨record, packet, message⟩

/-- The slots in the order of the keys. -/
def slots (e : Exported) : List (String × Slot) :=
  e.keys.filterMap fun key => (e.get? key).map fun slot => (key, slot)

/-- Says that an export holds exactly the given slots, each map its part of them in their
    order. -/
structure Holds (e : Exported) (slots : List (String × Slot)) : Prop where
  raw : e.raw.entries = slots.map fun entry => (entry.1, entry.2.record)
  packets : e.packets.entries = slots.map fun entry => (entry.1, entry.2.packet)
  prepared : e.prepared.entries = slots.map fun entry => (entry.1, entry.2.message)

theorem holds_empty : ({} : Exported).Holds [] := ⟨rfl, rfl, rfl⟩

end Exported

/-! ### What is shown -/

namespace Exported.Holds

variable {e e' : Exported} {slots : List (String × Slot)}

theorem keys_eq (h : e.Holds slots) : e.keys = slots.map Prod.fst := by
  show e.raw.entries.map Prod.fst = _
  rw [h.raw, map_fst_map Slot.record]

theorem nodup (h : e.Holds slots) : (slots.map Prod.fst).Nodup := h.keys_eq ▸ e.raw.nodup

/-- The slots are all that an export holds. -/
theorem unique (h : e.Holds slots) (h' : e'.Holds slots) : e = e' := by
  have hraw : e.raw = e'.raw := OrderedMap.ext_entries (h.raw.trans h'.raw.symm)
  have hpackets : e.packets = e'.packets :=
    OrderedMap.ext_entries (h.packets.trans h'.packets.symm)
  have hprepared : e.prepared = e'.prepared :=
    OrderedMap.ext_entries (h.prepared.trans h'.prepared.symm)
  cases e
  cases e'
  cases hraw
  cases hpackets
  cases hprepared
  rfl

theorem get?_raw (h : e.Holds slots) (key : String) :
    e.raw.get? key = (lookupEntry key slots).map Slot.record :=
  OrderedMap.get?_of_map h.raw key

theorem get?_packets (h : e.Holds slots) (key : String) :
    e.packets.get? key = (lookupEntry key slots).map Slot.packet :=
  OrderedMap.get?_of_map h.packets key

theorem get?_prepared (h : e.Holds slots) (key : String) :
    e.prepared.get? key = (lookupEntry key slots).map Slot.message :=
  OrderedMap.get?_of_map h.prepared key

/-- The three maps have the same of each key. -/
theorem get?_eq (h : e.Holds slots) (key : String) : e.get? key = lookupEntry key slots := by
  simp only [Exported.get?, h.get?_raw, h.get?_packets, h.get?_prepared]
  cases lookupEntry key slots with
  | none => rfl
  | some slot => rfl

theorem slots_eq (h : e.Holds slots) : e.slots = slots := by
  unfold Exported.slots
  rw [h.keys_eq, List.filterMap_map]
  have hsame : ∀ entry ∈ slots,
      ((fun key => (e.get? key).map fun slot => (key, slot)) ∘ Prod.fst) entry = some entry := by
    intro entry hmem
    show (e.get? entry.1).map _ = some entry
    rw [h.get?_eq, lookupEntry_of_mem h.nodup hmem]
    rfl
  rw [List.filterMap_congr hsame, List.filterMap_some]

/-- Under the key of a slot, the maps of results have its parts. -/
theorem get?_of_split (h : e.Holds slots) {before rest : List (String × Slot)} {key : String}
    {slot : Slot} (hsplit : slots = before ++ (key, slot) :: rest) :
    e.packets.get? key = some slot.packet ∧ e.prepared.get? key = some slot.message := by
  have hmem : (key, slot) ∈ slots := by
    rw [hsplit]
    exact List.mem_append_right before List.mem_cons_self
  have hfound : lookupEntry key slots = some slot := lookupEntry_of_mem h.nodup hmem
  rw [h.get?_packets, h.get?_prepared, hfound]
  exact ⟨rfl, rfl⟩

theorem failures_eq (h : e.Holds slots) :
    e.failures = slots.filterMap fun entry => entry.2.fault?.map fun fault => (entry.1, fault) := by
  rw [failures, h.prepared, List.filterMap_map]
  rfl

theorem messages_eq (h : e.Holds slots) :
    e.messages = slots.filterMap fun entry =>
      entry.2.message?.map fun message => (entry.1, message) := by
  rw [messages, h.prepared, List.filterMap_map]
  rfl

/-- A view shows each slot under its key; in no map anything is missing. -/
theorem members_eq (h : e.Holds slots) (view : View) :
    e.members view = slots.map fun entry => (entry.1, entry.2.toJson view) := by
  rw [members, h.raw, List.map_map]
  refine List.map_congr_left fun entry hmem => ?_
  have hfound : lookupEntry entry.1 slots = some entry.2 := lookupEntry_of_mem h.nodup hmem
  cases view with
  | raw => rfl
  | packets =>
    show (entry.1, shownResult _ (e.packets.get? entry.1)) = _
    rw [h.get?_packets, hfound]
    rfl
  | messages =>
    show (entry.1, shownResult _ (e.prepared.get? entry.1)) = _
    rw [h.get?_prepared, hfound]
    rfl

end Exported.Holds

/-! ### Slots one after the other -/

/-- The slot of a record whose resolution has come to `packet`, and the ids after it. -/
def settleSlot (ids : IdSource) (record : Record) (packet : Except Fault ResolvedRecord) :
    Slot × IdSource :=
  (⟨record, packet, (settle ids packet).1⟩, (settle ids packet).2)

/-- Says that a slot holds a message exactly if it holds a resolved record, and otherwise the
    same fault instead of either. -/
def Slot.Coherent (slot : Slot) : Prop := faultOf? slot.packet = faultOf? slot.message

theorem coherent_settleSlot (ids : IdSource) (record : Record) (packet : Except Fault ResolvedRecord) :
    (settleSlot ids record packet).1.Coherent := by
  cases packet with
  | error fault => rfl
  | ok packet => rfl

/-- The slots of entries whose records are resolved one after the other by `resolve`. -/
def exportSlots {σ : Type} (resolve : σ → Record → Except Fault ResolvedRecord × σ)
    (ids : IdSource) (r : σ) : List (String × Record) → List (String × Slot) × IdSource × σ
  | [] => ([], ids, r)
  | (key, record) :: rest =>
    let (packet, r) := resolve r record
    let (slot, ids) := settleSlot ids record packet
    let (slots, ids, r) := exportSlots resolve ids r rest
    ((key, slot) :: slots, ids, r)

/-- However records are resolved, their slots are coherent. -/
theorem coherent_exportSlots {σ : Type} (resolve : σ → Record → Except Fault ResolvedRecord × σ)
    (ids : IdSource) (r : σ) (entries : List (String × Record)) :
    ∀ entry ∈ (exportSlots resolve ids r entries).1, entry.2.Coherent := by
  induction entries generalizing ids r with
  | nil => exact fun _ hmem => nomatch hmem
  | cons entry rest ih =>
    exact List.forall_mem_cons.2
      ⟨coherent_settleSlot ids entry.2 (resolve r entry.2).1, ih _ (resolve r entry.2).2⟩

namespace Exported.Holds

variable {e : Exported} {slots : List (String × Slot)} {σ : Type}
  {resolve : σ → Record → Except Fault ResolvedRecord × σ} {key : String}

/-- A record under a new key adds its slot. -/
theorem insert (h : e.Holds slots) (hnew : key ∉ slots.map Prod.fst) (ids : IdSource)
    (record : Record) (packet : Except Fault ResolvedRecord) :
    (e.insert ids key record packet).1.Holds
      (slots ++ [(key, (settleSlot ids record packet).1)]) := by
  let slot := (settleSlot ids record packet).1
  constructor
  case raw => exact OrderedMap.entries_insert_of_map (f := Slot.record) h.raw hnew slot
  case packets => exact OrderedMap.entries_insert_of_map (f := Slot.packet) h.packets hnew slot
  case prepared => exact OrderedMap.entries_insert_of_map (f := Slot.message) h.prepared hnew slot

/-- Entries under new, different keys add their slots in order, and draw the same ids. -/
theorem exportEntries (h : e.Holds slots) {entries : List (String × Record)}
    (hnew : (slots.map Prod.fst ++ entries.map Prod.fst).Nodup) (ids : IdSource) (r : σ) :
    (Console.exportEntries resolve e ids r entries).1.Holds
        (slots ++ (exportSlots resolve ids r entries).1) ∧
      (Console.exportEntries resolve e ids r entries).2 = (exportSlots resolve ids r entries).2 := by
  induction entries generalizing e slots ids r with
  | nil =>
    refine ⟨?_, rfl⟩
    rw [exportSlots, List.append_nil]
    exact h
  | cons entry rest ih =>
    obtain ⟨key, record⟩ := entry
    -- the keys of a store differ, so an insertion never finds its key and always appends
    have hkey : key ∉ slots.map Prod.fst := by
      intro hmem
      exact (List.nodup_append.1 hnew).2.2 key hmem key List.mem_cons_self rfl
    have hstep := h.insert hkey ids record (resolve r record).1
    have hrest : ((slots ++ [(key, (settleSlot ids record (resolve r record).1).1)]).map Prod.fst ++
        rest.map Prod.fst).Nodup := by
      simpa using hnew
    obtain ⟨hholds, hafter⟩ := ih hstep hrest (settleSlot ids record (resolve r record).1).2
      (resolve r record).2
    rw [List.append_assoc] at hholds
    exact ⟨hholds, hafter⟩

end Exported.Holds

/-- An export of all entries of a store holds their slots, and draws the ids that these
    draw. -/
theorem Exported.holds_exportEntries {σ : Type}
    (resolve : σ → Record → Except Fault ResolvedRecord × σ) (ids : IdSource) (r : σ)
    (store : Store) :
    (exportEntries resolve {} ids r store.entries).1.Holds
        (exportSlots resolve ids r store.entries).1 ∧
      (exportEntries resolve {} ids r store.entries).2 = (exportSlots resolve ids r store.entries).2 :=
  holds_empty.exportEntries store.records.nodup ids r

end Console
