import Console.Proofs.Record.RoundTrip

/-! # Written packets are a normal form

    The packet that a record writes is written again, member by member, by the record that it
    reads back as (`Record.exists_toPacket_eq`). That record differs from the first one in
    two ways, neither of which its packet shows:

    - its table holds the unreferenced grips first. They alone are listed in `objects`, and
      they keep their order (`unreferenced_reloaded`), since the grips in line are added
      behind them and describe other actors (`ObjectTable.filter_toList_foldl_add`),
    - a described reference has taken the type of its grip, but it is the grip that stands in
      its place (`argumentJson_reloaded`).
-/

namespace Console

/-! ### Tables -/

section
variable {κ ν : Type} [DecidableEq κ]

/-- An insertion is not seen among other keys. -/
theorem filter_insertEntry {keep : κ → Bool} {key : κ} (h : keep key = false) (value : ν)
    (entries : List (κ × ν)) :
    (insertEntry key value entries).filter (fun entry => keep entry.1) =
      entries.filter fun entry => keep entry.1 := by
  induction entries with
  | nil => simp [insertEntry, h]
  | cons entry rest ih =>
    by_cases hkey : entry.1 = key
    · subst hkey
      simp [insertEntry, h]
    · simp only [insertEntry, if_neg hkey, List.filter_cons, ih]

end

namespace ObjectTable

variable {keep : ActorId → Bool} {grips : List Grip}

/-- What a table says about some actors, read off its entries. -/
theorem filter_toList (keep : ActorId → Bool) (table : ObjectTable) :
    table.toList.filter (fun grip => keep grip.actor) =
      (table.grips.entries.filter fun entry => keep entry.1).map Prod.snd := by
  rw [toList, List.filter_map]
  refine congrArg (List.map Prod.snd) (List.filter_congr fun entry hentry => ?_)
  show keep entry.2.actor = keep entry.1
  rw [table.ownActor entry hentry]

/-- Further descriptions change nothing for the actors that they do not describe. -/
theorem filter_toList_foldl_add (table : ObjectTable) (h : ∀ grip ∈ grips, keep grip.actor = false) :
    (grips.foldl add table).toList.filter (fun grip => keep grip.actor) =
      table.toList.filter fun grip => keep grip.actor := by
  induction grips generalizing table with
  | nil => rfl
  | cons grip rest ih =>
    have hadd : (table.add grip).toList.filter (fun g => keep g.actor) =
        table.toList.filter fun g => keep g.actor := by
      rw [filter_toList, filter_toList]
      exact congrArg (List.map Prod.snd) (filter_insertEntry (h grip List.mem_cons_self) grip _)
    rw [List.foldl_cons, ih (table.add grip) fun g hg => h g (List.mem_cons_of_mem _ hg), hadd]

/-- A table describes no actor twice. -/
theorem nodup_actors (table : ObjectTable) : (table.toList.map Grip.actor).Nodup := by
  have hactors : table.toList.map Grip.actor = table.grips.entries.map Prod.fst := by
    rw [toList, List.map_map]
    exact List.map_congr_left fun entry hentry => table.ownActor entry hentry
  rw [hactors]
  exact table.grips.nodup

/-- Descriptions of different actors are kept in their order. -/
theorem toList_ofList (h : (grips.map Grip.actor).Nodup) : (ofList grips).toList = grips := by
  have hgrips : (ofList grips).grips =
      OrderedMap.empty.insertAll (grips.map fun grip => (grip.actor, grip)) := by
    rw [OrderedMap.insertAll, List.foldl_map]
    exact (List.foldl_hom ObjectTable.grips fun _ _ => rfl).symm
  have hentries : (OrderedMap.empty.insertAll (grips.map fun grip => (grip.actor, grip))).entries =
      grips.map fun grip => (grip.actor, grip) := by
    refine OrderedMap.entries_insertAll (m := .empty) ?_
    simpa [OrderedMap.empty, Function.comp_def] using h
  rw [toList, hgrips, hentries, List.map_map]
  exact List.map_id grips

end ObjectTable

namespace Record

/-! ### The record that comes back -/

/-- The references that come back are to the same actors. -/
theorem actors_reloaded (record : Record) :
    record.reloaded.references.map Reference.actor = record.references.map Reference.actor := by
  have hargument : ∀ argument : Argument,
      (ReadArgument.reread record.objects argument).argument.reference?.map Reference.actor =
        argument.reference?.map Reference.actor := by
    intro argument
    cases argument with
    | reference reference =>
      cases hget : record.objects.get? reference.actor with
      | none => simp [ReadArgument.reread, hget]
      | some grip =>
        have hactor := ObjectTable.actor_of_get? hget
        simp [ReadArgument.reread, hget, ReadArgument.ofGrip, Argument.reference?, hactor]
    | _ => rfl
  simp only [references, reloaded, List.filterMap_map, List.map_filterMap, Function.comp_def,
    hargument]

/-- Whether no argument refers to an actor. -/
def spares (record : Record) (actor : ActorId) : Bool :=
  !record.references.any fun reference => reference.actor == actor

theorem spares_eq (record : Record) (actor : ActorId) :
    record.spares actor = !(record.references.map Reference.actor).contains actor := by
  rw [spares, Bool.eq_iff_iff]
  simp

theorem spares_reloaded (record : Record) : record.reloaded.spares = record.spares := by
  funext actor
  rw [spares_eq, spares_eq, actors_reloaded]

/-- The grips in line belong to references. -/
theorem spares_inlined {record : Record} {grip : Grip} (h : grip ∈ record.inlined) :
    record.spares grip.actor = false := by
  obtain ⟨reference, hmem, hget⟩ := mem_inlined.1 h
  simpa [spares] using ⟨reference, hmem, (ObjectTable.actor_of_get? hget).symm⟩

/-- The list of unreferenced grips comes back in its order. -/
theorem unreferenced_reloaded (record : Record) : record.reloaded.unreferenced = record.unreferenced := by
  have hspared : record.unreferenced.filter (fun grip => record.spares grip.actor) =
      record.unreferenced :=
    List.filter_eq_self.2 fun grip hgrip => (List.mem_filter.1 hgrip).2
  have hnodup : (record.unreferenced.map Grip.actor).Nodup :=
    record.objects.nodup_actors.sublist (List.filter_sublist.map Grip.actor)
  show record.reloaded.objects.toList.filter (fun grip => record.reloaded.spares grip.actor) = _
  rw [spares_reloaded]
  show (ObjectTable.ofList (record.unreferenced ++ record.inlined)).toList.filter
    (fun grip => record.spares grip.actor) = _
  -- the grips in line are added last, and none of them describes a spared actor
  rw [ObjectTable.ofList, List.foldl_append,
    ObjectTable.filter_toList_foldl_add _ fun grip hgrip => spares_inlined hgrip]
  show (ObjectTable.ofList record.unreferenced).toList.filter _ = _
  rw [ObjectTable.toList_ofList hnodup, hspared]

/-- An argument that comes back is written as it was. -/
theorem argumentJson_reloaded (record : Record) (argument : Argument) :
    argumentJson record.reloaded.objects (ReadArgument.reread record.objects argument).argument =
      argumentJson record.objects argument := by
  cases argument with
  | reference reference =>
    -- a described reference comes back with another type, but its grip is written instead
    cases hget : record.objects.get? reference.actor with
    | none => simp [ReadArgument.reread, hget, argumentJson, get?_reloaded]
    | some grip =>
      have hactor := ObjectTable.actor_of_get? hget
      simp [ReadArgument.reread, hget, ReadArgument.ofGrip, argumentJson, get?_reloaded, hactor]
  | _ => rfl

/-- The record that comes back writes the packet that it came from. -/
theorem toPacket_reloaded (record : Record) : record.reloaded.toPacket = record.toPacket := by
  have harguments : record.reloaded.arguments.map (argumentJson record.reloaded.objects) =
      record.arguments.map (argumentJson record.objects) := by
    show (record.arguments.map _).map _ = _
    rw [List.map_map]
    exact List.map_congr_left fun argument _ => record.argumentJson_reloaded argument
  have hmembers : ∀ arguments, record.reloaded.packetMembers arguments =
      record.packetMembers arguments := by
    intro arguments
    unfold packetMembers
    rw [unreferenced_reloaded]
    rfl
  rw [toPacket, harguments, hmembers]
  rfl

/-- The packet of a record that was read is a normal form: it is read, and what it is read
    as writes it again, with the same members and lists in the same order. -/
theorem exists_toPacket_eq {value : Json} {record : Record} (hread : ofPacket value = .ok record)
    (htime : ∀ packet, Packet.ofJson? value = some packet → packet.HasWholeMillis) :
    ∃ again, ofPacket record.toPacket = .ok again ∧ again.toPacket = record.toPacket :=
  ⟨record.reloaded, ofPacket_toPacket_of_ofPacket hread htime, record.toPacket_reloaded⟩

/-- A packet in disorder: its counter is a list, a member means nothing, an object is
    referred to as a symbol and described once more in line, and of the two actors that the
    list describes the second one is referred to by nobody. -/
def tangledJson : Json :=
  .object [("note", .null), ("timeStamp", .int (-250)), ("level", .string "count"),
    ("counter", .array [.string "hits", .nat 2]),
    ("objects", .array [.object [("actor", .string "o"), ("type", .string "symbol")],
      .object [("actor", .string "s"), ("type", .string "symbol")]]),
    ("arguments", .array [.object [("actorID", .string "o"), ("type", .string "symbol")],
      .object [("_grip", .object [("actor", .string "o"), ("type", .string "object")])]])]

/-- Its record. -/
def tangled : Record where
  kind := .count { label := "hits", count := some 2, error := none }
  arguments := [.reference ⟨⟨"o"⟩, .symbol⟩, .reference ⟨⟨"o"⟩, .object⟩]
  timestamp := ⟨-250000, by decide⟩
  objects := .ofList [sampleObject, .symbol ⟨"s"⟩ none]

/-- The record of the packet in disorder changes when it is saved, and its packet does not. -/
theorem tangled_saved_twice : ofPacket tangledJson = .ok tangled ∧
    tangled.reloaded.objects.toList ≠ tangled.objects.toList ∧
    ∃ again, ofPacket tangled.toPacket = .ok again ∧ again.toPacket = tangled.toPacket := by
  have hread : ofPacket tangledJson = .ok tangled := by rfl
  have htime : ∀ packet, Packet.ofJson? tangledJson = some packet → packet.HasWholeMillis := by
    intro packet hpacket ms hms
    cases hpacket
    cases hms
    exact ⟨-250, by decide, Binary64.toRat_ofInt (by decide)⟩
  refine ⟨hread, ?_, exists_toPacket_eq hread htime⟩
  intro h
  cases h

end Record

end Console
