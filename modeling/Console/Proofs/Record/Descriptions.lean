import Console.Proofs.Record.RoundTrip

/-! # What a packet describes

    A packet describes actors in its list of objects and, in line, in its arguments. The
    table of its record is that of all these descriptions, the list before the arguments
    (`Record.objects_of_descriptions`), so that

    - it has the described actors and no others, in the order of their first description,
    - it holds the last description of each,
    - the references of the record are those of the described and the dangling entries,
      whatever the table holds for their actors.
-/

namespace Console

/-! ### Descriptions in order -/

/-- The last item with a property is the one behind which none has it. -/
theorem getLast?_filter_eq_some_iff {α : Type} {p : α → Bool} {xs : List α} {x : α} :
    (xs.filter p).getLast? = some x ↔
      ∃ before after, xs = before ++ x :: after ∧ p x ∧ ∀ y ∈ after, ¬ p y := by
  rw [← List.head?_reverse, ← List.filter_reverse, List.head?_filter, List.find?_eq_some_iff_append]
  constructor
  · rintro ⟨hx, after, before, hxs, hafter⟩
    refine ⟨before.reverse, after.reverse, ?_, hx, fun y hy => ?_⟩
    · rw [← List.reverse_reverse xs, hxs]
      simp
    · simpa using hafter y (List.mem_reverse.1 hy)
  · rintro ⟨before, after, rfl, hx, hafter⟩
    refine ⟨hx, after.reverse, before.reverse, by simp, fun y hy => ?_⟩
    simpa using hafter y (List.mem_reverse.1 hy)

namespace ObjectTable

variable {grips : List Grip} {actor : ActorId} {grip : Grip}

/-- A table holds for an actor the description that no further one of the actor follows. -/
theorem get?_ofList_eq_some_iff : (ofList grips).get? actor = some grip ↔
    ∃ before after, grips = before ++ grip :: after ∧ grip.actor = actor ∧
      ∀ later ∈ after, later.actor ≠ actor := by
  rw [get?_ofList, getLast?_filter_eq_some_iff]
  simp only [decide_eq_true_eq, ne_eq]

/-- A table has the actors in the order of their first description. -/
theorem keys_ofList (grips : List Grip) :
    (ofList grips).grips.keys = (grips.map Grip.actor).eraseDups := by
  have hempty : (OrderedMap.empty : OrderedMap ActorId Grip).keys = List.eraseDups [] :=
    List.eraseDups_nil.symm
  rw [grips_ofList]
  exact OrderedMap.keys_foldl_insert Grip.actor hempty grips

theorem contains_ofList_iff :
    (ofList grips).contains actor ↔ ∃ grip ∈ grips, grip.actor = actor := by
  rw [contains, OrderedMap.contains_iff_mem_keys, keys_ofList, List.mem_eraseDups, List.mem_map]

end ObjectTable

namespace Record

/-- What reading a packet leaves of its descriptions and references. -/
theorem objects_and_references {value : Json} {record : Record} (hread : ofPacket value = .ok record) :
    ∃ packet values, Packet.ofJson? value = some packet ∧ packet.arguments = some values ∧
      record.objects =
        ObjectTable.ofList (packet.objects.getD [] ++ values.filterMap Json.inlineGrip?) ∧
      record.references = values.filterMap Json.reference? := by
  obtain ⟨packet, hfields, hrecord⟩ := ofPacket_eq_ok_iff.1 hread
  obtain ⟨level, -, reads, hreads, kind, -, timestamp, -, rfl⟩ := Packet.toRecord_eq_ok_iff.1 hrecord
  obtain ⟨values, hvalues, hforall⟩ := Packet.readEach_eq_ok_iff.1 hreads
  refine ⟨packet, values, hfields, hvalues, ?_, ?_⟩
  · rw [ReadArgument.filterMap_inlineGrip? hforall]
    rfl
  · rw [ReadArgument.filterMap_reference? hforall]
    rfl

/-- The table of a packet's record has the actors described by the list of objects or by an
    argument, and no others, in the order of their first description; it holds the last
    description of each, the list being read before the arguments. The references are, in
    the order of the arguments, those of the described and of the dangling entries. -/
theorem objects_of_descriptions {value : Json} {record : Record} (hread : ofPacket value = .ok record) :
    ∃ packet values, Packet.ofJson? value = some packet ∧ packet.arguments = some values ∧
      let descriptions := packet.objects.getD [] ++ values.filterMap Json.inlineGrip?
      (∀ actor, record.objects.contains actor ↔ ∃ grip ∈ descriptions, grip.actor = actor) ∧
      (∀ actor grip, record.objects.get? actor = some grip ↔
        ∃ before after, descriptions = before ++ grip :: after ∧ grip.actor = actor ∧
          ∀ later ∈ after, later.actor ≠ actor) ∧
      record.objects.grips.keys = (descriptions.map Grip.actor).eraseDups ∧
      record.references = values.filterMap Json.reference? := by
  obtain ⟨packet, values, hfields, hvalues, hobjects, hreferences⟩ := objects_and_references hread
  refine ⟨packet, values, hfields, hvalues, ?_⟩
  rw [hobjects]
  exact ⟨fun actor => ObjectTable.contains_ofList_iff,
    fun actor grip => ObjectTable.get?_ofList_eq_some_iff, ObjectTable.keys_ofList _, hreferences⟩

/-- A packet that describes two actors four times and refers to a third one without
    describing it. -/
def retoldJson : Json :=
  .object [("level", .string "log"),
    ("objects", .array [.object [("actor", .string "o"), ("type", .string "symbol")]]),
    ("arguments", .array [.object [("actor", .string "s"), ("type", .string "symbol")],
      .object [("_grip", .object [("actor", .string "o"), ("type", .string "object")])],
      .string "text", .object [("actorID", .string "d")],
      .object [("actor", .string "s"), ("type", .string "symbol"), ("name", .string "n")]])]

/-- The packet is read; its table has the two actors in the order of their first description
    and of the second the last one. -/
theorem retold_described : ∃ record, ofPacket retoldJson = .ok record ∧
    record.objects.grips.keys = [⟨"o"⟩, ⟨"s"⟩] ∧
    record.objects.get? ⟨"s"⟩ = some (.symbol ⟨"s"⟩ (some "n")) ∧
    record.references =
      [⟨⟨"s"⟩, .symbol⟩, ⟨⟨"o"⟩, .object⟩, ⟨⟨"d"⟩, .object⟩, ⟨⟨"s"⟩, .symbol⟩] := by
  have hread : ofPacket retoldJson = .ok _ := rfl
  obtain ⟨packet, values, hfields, hvalues, -, hlast, hkeys, hreferences⟩ :=
    objects_of_descriptions hread
  cases hfields
  cases hvalues
  refine ⟨_, hread, hkeys.trans (by decide), (hlast _ _).2 ?_, hreferences⟩
  exact ⟨_, [], (List.dropLast_concat_getLast (by simp)).symm, rfl, fun _ h => nomatch h⟩

end Record

end Console
