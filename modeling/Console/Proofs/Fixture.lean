import Console.Proofs.Fixture.Agreement
import Console.Proofs.Record.RoundTrip
import Console.Proofs.Views

/-! # Fixtures read back

    A store that was written, in either layout, is read back with the same keys in the same
    order and with equal records (`Fixture.exists_read_written`), whatever its keys are:

    - `printed_packetsOf`: the packets of the store make entries that both layouts keep, so
      that each text is taken for the layout it was written in,
    - `exists_ingestAll`: entries under different keys are stored one after the other.

    The one thing asked of JSON text is that it keeps the packets: numbers with many digits
    do not all read back, nor do values that are nested too deep.
-/

namespace Console

/-- Says that a record was read from a packet, that its references have the types of their
    grips, and that its own packet, one level deep in a text, reads back from what is
    printed of it. -/
structure Record.Savable (record : Record) : Prop where
  came : ∃ packet, Record.ofPacket packet = .ok record ∧
    ∀ fields, Packet.ofJson? packet = some fields → fields.HasWholeMillis
  types : record.TypesAgree
  printed : Json.parseWithin? (Json.nesting - 1) record.toPacket.compact = some record.toPacket

namespace Record.Savable

variable {record : Record}

theorem ofPacket_toPacket (h : record.Savable) : Record.ofPacket record.toPacket = .ok record.reloaded := by
  obtain ⟨packet, hread, htime⟩ := h.came
  exact Record.ofPacket_toPacket_of_ofPacket hread htime

end Record.Savable

/-- The members of a fixture in the map layout. -/
def packetsOf (entries : List (String × Record)) : List (String × Json) :=
  entries.map fun entry => (entry.1, entry.2.toPacket)

theorem packetsOf_cons (entry : String × Record) (rest : List (String × Record)) :
    packetsOf (entry :: rest) = (entry.1, entry.2.toPacket) :: packetsOf rest :=
  List.map_cons

/-! ### Storing -/

namespace Store

variable {store : Store} {key : String} {packet : Json} {record : Record}

/-- A record under a new key goes last. -/
theorem exists_ingest_new (hnew : key ∉ store.keys) (hread : Record.ofPacket packet = .ok record) :
    ∃ t, store.ingest key packet = (.ok (), t) ∧ t.mode = store.mode ∧
      t.entries = store.entries ++ [(key, record)] := by
  have hcontains : store.records.contains key = false := by
    cases hget : store.records.get? key with
    | none => rw [OrderedMap.contains, hget]; rfl
    | some found =>
      exact absurd (List.mem_map_of_mem (OrderedMap.get?_eq_some_iff.1 hget)) hnew
  refine ⟨{ store with records := store.records.insert key record }, ?_, rfl, ?_⟩
  · simp only [ingest, hread, put, hcontains]
    simp
  · exact insertEntry_of_notMem hnew

end Store

namespace Fixture

variable {entries : List (String × Record)}

/-- Entries under new, different keys are stored in order, each with the record that its
    packet reads back as. -/
theorem exists_ingestAll (store : Store) (h : ∀ entry ∈ entries, entry.2.Savable)
    (hnew : ((store.entries ++ entries).map Prod.fst).Nodup) :
    ∃ t, ingestAll store (packetsOf entries) = .ok t ∧
      t.entries = store.entries ++ entries.map fun entry => (entry.1, entry.2.reloaded) := by
  induction entries generalizing store with
  | nil => exact ⟨store, rfl, by simp⟩
  | cons entry rest ih =>
    have hkey : entry.1 ∉ store.keys := by
      rw [List.map_append, List.map_cons] at hnew
      intro hmem
      exact (List.nodup_append.1 hnew).2.2 _ hmem _ List.mem_cons_self rfl
    obtain ⟨next, hnext, -, hentries⟩ :=
      Store.exists_ingest_new hkey (h entry List.mem_cons_self).ofPacket_toPacket
    have hrest : ((next.entries ++ rest).map Prod.fst).Nodup := by
      rw [hentries]
      simpa using hnew
    obtain ⟨t, ht, hafter⟩ := ih next (fun e he => h e (List.mem_cons_of_mem _ he)) hrest
    refine ⟨t, ?_, ?_⟩
    · have hstep : ingest store entry.1 entry.2.toPacket = .ok next := by
        rw [ingest, hnext]
      rw [packetsOf_cons, ingestAll, hstep]
      exact ht
    · rw [hafter, hentries]
      simp

/-- The packets of records that can be saved are kept by JSON text. -/
theorem printed_packetsOf (h : ∀ entry ∈ entries, entry.2.Savable) : Printed (packetsOf entries) where
  objects := List.forall_mem_map.2 fun _ _ => ⟨_, rfl⟩
  rereads := List.forall_mem_map.2 fun entry hmem => (h entry hmem).printed

/-! ### The map layout -/

variable {text : String} {s : Json.Spacing} {blanks : List Char}

/-- A map is read with all its entries. -/
theorem exists_read_map (h : ∀ entry ∈ entries, entry.2.Savable)
    (hnodup : (entries.map Prod.fst).Nodup)
    (htext : text.toList = Json.spell s 0 (.object (packetsOf entries)) ++ blanks)
    (hblanks : ∀ c ∈ blanks, Json.isSpace c) (mode : InsertMode) :
    ∃ t, read mode text = .ok t ∧
      t.entries = entries.map fun entry => (entry.1, entry.2.reloaded) := by
  obtain ⟨t, ht, hentries⟩ := exists_ingestAll { mode := mode } h hnodup
  refine ⟨t, ?_, hentries⟩
  rw [read_mapText (printed_packetsOf h) htext hblanks]
  exact ht

/-! ### The lines layout -/

/-- The entry of a line. -/
def entryJson (key : String) (record : Record) : Json :=
  .object [("key", .string key), ("packet", record.toPacket)]

/-- The lines of a store, without their line breaks. -/
def linesOf (entries : List (String × Record)) : List (List Char) :=
  entries.map fun entry => (entryJson entry.1 entry.2).compact.toList

theorem linesOf_eq (entries : List (String × Record)) :
    linesOf entries = (packetsOf entries).map lineOf := by
  rw [packetsOf, List.map_map]
  rfl

theorem toList_writeLines (store : Store) :
    (writeLines store).toList = (linesOf store.entries).flatMap (· ++ ['\n']) := by
  rw [writeLines_eq, toList_linesText, linesOf_eq]
  rfl

/-- Lines are read with all their entries. -/
theorem exists_read_lines (h : ∀ entry ∈ entries, entry.2.Savable) (hne : entries ≠ [])
    (hnodup : (entries.map Prod.fst).Nodup)
    (htext : text.toList = (linesOf entries).flatMap (· ++ ['\n'])) (mode : InsertMode) :
    ∃ t, read mode text = .ok t ∧
      t.entries = entries.map fun entry => (entry.1, entry.2.reloaded) := by
  obtain ⟨t, ht, hentries⟩ := exists_ingestAll { mode := mode } h hnodup
  refine ⟨t, ?_, hentries⟩
  have hlined : Lined text.toList ((packetsOf entries).map lineOf) := by
    rw [htext, ← linesOf_eq]
    exact lined_flatMap _
  rw [read_linesText (printed_packetsOf h) (by simpa [packetsOf] using hne) hlined]
  exact ht

/-! ### Stores -/

/-- The raw view of an exported store is its fixture. -/
theorem toJson_raw (store : Store) (ids : IdSource) (limits : Limits) :
    (store.export ids limits).1.toJson .raw = .object (packetsOf store.entries) := by
  rw [Exported.toJson, Exported.members, raw_export]
  rfl

/-- The reloaded records equal those that were written. -/
theorem forall₂_reloaded (h : ∀ entry ∈ entries, entry.2.Savable) :
    List.Forall₂ Record.Equiv (entries.map Prod.snd)
      ((entries.map fun entry => (entry.1, entry.2.reloaded)).map Prod.snd) := by
  induction entries with
  | nil => exact .nil
  | cons entry rest ih =>
    exact .cons (Record.equiv_reloaded (h entry List.mem_cons_self).types)
      (ih fun e he => h e (List.mem_cons_of_mem _ he))

/-- A store with records that can be saved, and with one at least, is read back in strict
    mode from both layouts and from its raw view, indented or not, with the same keys in the
    same order and with equal records. -/
theorem exists_read_written (store : Store) (hne : store.entries ≠ [])
    (h : ∀ entry ∈ store.entries, entry.2.Savable) (ids : IdSource) (limits : Limits) :
    ∀ text ∈ [writeMap store, writeLines store, ((store.export ids limits).1.toJson .raw).pretty,
        ((store.export ids limits).1.toJson .raw).compact],
      ∃ again, read .strict text = .ok again ∧ again.keys = store.keys ∧
        List.Forall₂ Record.Equiv (store.entries.map Prod.snd) (again.entries.map Prod.snd) := by
  have hnodup : (store.entries.map Prod.fst).Nodup := store.records.nodup
  intro text hmem
  have hread : ∃ again, read .strict text = .ok again ∧
      again.entries = store.entries.map fun entry => (entry.1, entry.2.reloaded) := by
    simp only [List.mem_cons, List.not_mem_nil, or_false] at hmem
    rcases hmem with rfl | rfl | rfl | rfl
    · have htext : (writeMap store).toList =
          Json.spell Json.indented 0 (.object (packetsOf store.entries)) ++ ['\n'] := by
        rw [writeMap, String.toList_append, Json.pretty, Json.toList_prettyAt]
        rfl
      exact exists_read_map h hnodup htext (by simp [Json.isSpace]) .strict
    · exact exists_read_lines h hne hnodup (toList_writeLines store) .strict
    · rw [toJson_raw]
      have htext : (Json.object (packetsOf store.entries)).pretty.toList =
          Json.spell Json.indented 0 (.object (packetsOf store.entries)) ++ [] := by
        rw [Json.pretty, Json.toList_prettyAt, List.append_nil]
      exact exists_read_map h hnodup htext (List.forall_mem_nil _) .strict
    · rw [toJson_raw]
      have htext : (Json.object (packetsOf store.entries)).compact.toList =
          Json.spell Json.dense 0 (.object (packetsOf store.entries)) ++ [] := by
        rw [Json.toList_compact 0, List.append_nil]
      exact exists_read_map h hnodup htext (List.forall_mem_nil _) .strict
  obtain ⟨again, hagain, hentries⟩ := hread
  refine ⟨again, hagain, ?_, ?_⟩
  · show again.entries.map Prod.fst = store.entries.map Prod.fst
    rw [hentries, List.map_map]
    rfl
  · rw [hentries]
    exact forall₂_reloaded h

/-- A call without arguments. -/
def bareCall : Record where
  kind := .bare .log
  arguments := []

theorem bareCall_savable : bareCall.Savable where
  came := ⟨.object [("level", .string "log"), ("arguments", .array [])], rfl, by
    intro fields hfields ms hms
    cases hfields
    cases hms⟩
  types := fun _ h => nomatch h
  printed := by
    have hzero : ∀ depth, Json.reread depth (.nat 0) = some (.nat 0) := fun _ => rfl
    have hpacket : bareCall.toPacket = .object [("arguments", .array []), ("columnNumber", .nat 0),
      ("filename", .string ""), ("level", .string "log"), ("lineNumber", .nat 0),
      ("timeStamp", .nat 0), ("resourceType", .string "console-message"),
      ("isAlreadyExistingResource", .bool false)] := rfl
    rw [Json.parseWithin?_compact, hpacket]
    simp only [Json.reread, Json.rereadMembers, Json.rereadItems, Json.nesting, hzero, Option.map_some]
    rfl

/-- A store with the keys of the lines layout. -/
def keyAndPacket : Store :=
  { records := .ofList [("key", bareCall), ("packet", bareCall)] }

/-- A map is read as a map even if its keys are those of an entry. -/
theorem exists_read_keyAndPacket : ∃ again, read .strict (writeMap keyAndPacket) = .ok again ∧
    again.keys = ["key", "packet"] := by
  have hentries : keyAndPacket.entries = [("key", bareCall), ("packet", bareCall)] := rfl
  have hsavable : ∀ entry ∈ keyAndPacket.entries, entry.2.Savable := by
    intro entry hmem
    rw [hentries] at hmem
    simp only [List.mem_cons, List.not_mem_nil, or_false] at hmem
    rcases hmem with rfl | rfl <;> exact bareCall_savable
  obtain ⟨again, hread, hkeys, -⟩ := exists_read_written keyAndPacket (by rw [hentries]; nofun)
    hsavable (.sequential 1) {} (writeMap keyAndPacket) List.mem_cons_self
  exact ⟨again, hread, hkeys⟩

end Fixture

end Console
