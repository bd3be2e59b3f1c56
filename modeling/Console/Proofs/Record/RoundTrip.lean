import Console.Proofs.Record.Entries
import Console.Proofs.Record.ObjectTable
import Console.Proofs.Record.Timestamp
import Console.Proofs.Record.Written

/-! # Records read back

    A record that came from a packet, written and read again, is `Record.reloaded`: all its
    fields are unchanged, except that a described reference takes the type of its grip
    (`Record.ofPacket_toPacket`). Where references and grips agree on types, the record is
    the same (`Record.ofPacket_toPacket_equiv`).

    - `Record.Nonnull` and whole milliseconds hold of every record that was read, and are
      what its packet needs to read back,
    - `ReadArgument.ofJson_argumentJson`: each argument by itself,
    - `Record.get?_reloaded`: inline grips and the `objects` list make up the table again.
-/

namespace Console

/-! ### Arguments -/

/-- A written grip is an object with the type of the grip, and neither holds a grip nor
    names an actor under the key of references. -/
theorem Grip.exists_toJson (g : Grip) : ∃ members, g.toJson = .object members ∧
    lookupEntry "_grip" members = none ∧ lookupEntry "actorID" members = none ∧
    lookupEntry "type" members = some (.string g.type.name) := by
  cases g with
  | _ => exact ⟨_, rfl, by simp [lookupEntry], by simp [lookupEntry], by simp [lookupEntry]; rfl⟩

namespace ReadArgument

/-- What a written argument reads back as: a described reference comes with its grip. -/
def reread (objects : ObjectTable) (argument : Argument) : ReadArgument :=
  match argument with
  | .reference reference =>
    match objects.get? reference.actor with
    | some grip => ofGrip grip
    | none => { argument := .reference reference }
  | argument => { argument := argument }

theorem ofJson_grip {grip : Grip} (h : grip.Nonnull) : ofJson grip.toJson = .ok (ofGrip grip) := by
  obtain ⟨members, hjson, hgrip, hactor, htype⟩ := grip.exists_toJson
  have hread : Grip.ofJson? (.object members) = some grip := hjson ▸ Grip.ofJson?_toJson h
  simp [hjson, ofJson, ofMembers, hgrip, hactor, htype, ReferenceType.ofName?_name, ofGripJson,
    hread]

theorem ofJson_literal (l : Literal) : ofJson l.toJson = .ok { argument := .literal l } := by
  obtain ⟨name, members, hjson, hgrip, hactor, hname⟩ := l.exists_tag
  have hread := l.ofJson?_toJson
  rw [hjson] at hread
  simp [hjson, ofJson, ofMembers, lookupEntry, hgrip, hactor, hname, hread]

theorem ofJson_reference (reference : Reference) :
    ofJson (.object [("actorID", .string reference.actor.text),
      ("type", .string reference.type.name)]) = .ok { argument := .reference reference } := by
  have htype : ReferenceType.ofJson? (.string reference.type.name) = some reference.type :=
    reference.type.ofName?_name
  simp [ofJson, ofMembers, lookupEntry, htype]

/-- A written argument is read on its own. -/
theorem ofJson_argumentJson {objects : ObjectTable} (h : ∀ grip ∈ objects.toList, grip.Nonnull)
    (argument : Argument) :
    ofJson (Record.argumentJson objects argument) = .ok (reread objects argument) := by
  cases argument with
  | text | number | bool => rfl
  | literal l => exact ofJson_literal l
  | reference reference =>
    cases hget : objects.get? reference.actor with
    | none =>
      simp only [Record.argumentJson, reread, hget]
      exact ofJson_reference reference
    | some grip =>
      have hactor := ObjectTable.actor_of_get? hget
      simp only [Record.argumentJson, reread, hget]
      exact ofJson_grip (h grip (ObjectTable.mem_toList_iff.2 (hactor ▸ hget)))

/-- What was written argument by argument is read back so. -/
theorem listOfJson_map {write : Argument → Json} {read : Argument → ReadArgument}
    (h : ∀ argument, ofJson (write argument) = .ok (read argument)) (index : Nat)
    (arguments : List Argument) :
    listOfJson index (arguments.map write) = .ok (arguments.map read) := by
  rw [listOfJson_eq_ok_iff, List.forall₂_map_left_iff, List.forall₂_map_right_iff]
  exact List.forall₂_same.2 fun argument _ => h argument

end ReadArgument

/-! ### Stages of reading -/

/-- A sequence of two readers succeeds if both do. -/
theorem bind_eq_ok_iff {ε α β : Type} {x : Except ε α} {f : α → Except ε β} {b : β} :
    x >>= f = .ok b ↔ ∃ a, x = .ok a ∧ f a = .ok b := by
  cases x with
  | error => simp [bind, Except.bind]
  | ok a => simp [bind, Except.bind]

/-- A sequence of two readers fails where the first one does, or the second after it. -/
theorem bind_eq_error_iff {ε α β : Type} {x : Except ε α} {f : α → Except ε β} {e : ε} :
    x >>= f = .error e ↔ x = .error e ∨ ∃ a, x = .ok a ∧ f a = .error e := by
  cases x with
  | error => simp [bind, Except.bind]
  | ok a => simp [bind, Except.bind]

theorem mapError_eq_ok_iff {ε δ α : Type} {x : Except ε α} {f : ε → δ} {a : α} :
    x.mapError f = .ok a ↔ x = .ok a := by
  cases x with
  | error => simp [Except.mapError]
  | ok => simp [Except.mapError]

theorem Packet.readEach_eq_ok_iff {packet : Packet} {reads : List ReadArgument} :
    packet.readEach = .ok reads ↔ ∃ values, packet.arguments = some values ∧
      List.Forall₂ (fun value read => ReadArgument.ofJson value = .ok read) values reads := by
  unfold readEach
  cases packet.arguments with
  | none => simp
  | some values => simp [ReadArgument.listOfJson_eq_ok_iff]

/-- A packet makes a record if all stages of reading it succeed. -/
theorem Packet.toRecord_eq_ok_iff {packet : Packet} {record : Record} :
    packet.toRecord = .ok record ↔
      ∃ level, packet.readLevel = .ok level ∧
      ∃ arguments, packet.readEach = .ok arguments ∧
      ∃ kind, Kind.ofPacket level packet = .ok kind ∧
      ∃ timestamp, packet.timestamp = .ok timestamp ∧
        packet.record kind arguments timestamp = record := by
  simp only [toRecord_eq, bind_eq_ok_iff, pure, Except.pure, Except.ok.injEq]

theorem Record.ofPacket_eq_ok_iff {value : Json} {record : Record} :
    ofPacket value = .ok record ↔
      ∃ packet, Packet.ofJson? value = some packet ∧ packet.toRecord = .ok record := by
  unfold ofPacket
  cases Packet.ofJson? value with
  | none => simp
  | some packet => simp [mapError_eq_ok_iff]

/-- A kind is read from its level and its own payload. -/
theorem Kind.ofPacket_level (kind : Kind) {packet : Packet} (hcounter : packet.counter = kind.counter?)
    (htimer : packet.timer = kind.timer?) (hstack : packet.stacktrace = kind.stack?) :
    Kind.ofPacket kind.level packet = .ok kind := by
  cases kind with
  | bare level => cases level <;> rfl
  | error | assert | trace => simp [Kind.ofPacket, Kind.level, hstack, Kind.stack?]
  | count | countReset => simp [Kind.ofPacket, Kind.level, hcounter, Kind.counter?]
  | time | timeLog | timeEnd => simp [Kind.ofPacket, Kind.level, htimer, Kind.timer?]

namespace Record

/-! ### The record that comes back -/

/-- The grips that a record's packet holds in line. -/
def inlined (record : Record) : List Grip :=
  (record.arguments.map (ReadArgument.reread record.objects)).filterMap ReadArgument.described

/-- What the packet of a record reads back as. -/
def reloaded (record : Record) : Record :=
  { record with
    arguments := record.arguments.map fun argument =>
      (ReadArgument.reread record.objects argument).argument
    objects := .ofList (record.unreferenced ++ record.inlined) }

/-- A packet reads back with the time that is read of what it writes, if its grips hold no
    nulls. -/
theorem ofPacket_toPacket_of_time {record : Record} (hnonnull : record.Nonnull) {ms : Binary64}
    {timestamp : Timestamp} (hms : record.timestamp.toJson.real? = some ms)
    (hstamp : Timestamp.ofMillis? ms = some timestamp) :
    ofPacket record.toPacket = .ok { record.reloaded with timestamp := timestamp } := by
  have hlevel : record.written.readLevel = .ok record.kind.level := by
    simp [Packet.readLevel, written, Level.ofName?_name, Record.level]
  have harguments : record.written.readEach =
      .ok (record.arguments.map (ReadArgument.reread record.objects)) :=
    ReadArgument.listOfJson_map (ReadArgument.ofJson_argumentJson hnonnull) 0 record.arguments
  have hkind : Kind.ofPacket record.kind.level record.written = .ok record.kind :=
    record.kind.ofPacket_level rfl rfl rfl
  have htimestamp : record.written.timestamp = .ok timestamp := by
    simp [Packet.timestamp, written, hms, hstamp]
  have hrecord : record.written.record record.kind
      (record.arguments.map (ReadArgument.reread record.objects)) timestamp =
        { record.reloaded with timestamp := timestamp } := by
    simp [Packet.record, written, reloaded, inlined]
  rw [ofPacket_eq_ok_iff]
  refine ⟨record.written, ofJson?_toPacket hnonnull, Packet.toRecord_eq_ok_iff.2 ?_⟩
  exact ⟨_, hlevel, _, harguments, _, hkind, _, htimestamp, hrecord⟩

/-- A packet reads back if its grips hold no nulls and its time is a whole millisecond. -/
theorem ofPacket_toPacket {record : Record} (hnonnull : record.Nonnull)
    (htime : record.timestamp.IsWholeMillis) : ofPacket record.toPacket = .ok record.reloaded := by
  obtain ⟨ms, hms, hstamp⟩ := Timestamp.ofMillis?_toJson htime
  exact ofPacket_toPacket_of_time hnonnull hms hstamp

theorem mem_unreferenced {record : Record} {grip : Grip} :
    grip ∈ record.unreferenced ↔
      grip ∈ record.objects.toList ∧ ∀ reference ∈ record.references, reference.actor ≠ grip.actor := by
  simp [unreferenced]

/-- The grips in line are those of the references that are described. -/
theorem mem_inlined {record : Record} {grip : Grip} :
    grip ∈ record.inlined ↔
      ∃ reference ∈ record.references, record.objects.get? reference.actor = some grip := by
  have hargument : ∀ argument : Argument,
      (ReadArgument.reread record.objects argument).described = some grip ↔
        ∃ reference, argument.reference? = some reference ∧
          record.objects.get? reference.actor = some grip := by
    intro argument
    cases argument with
    | reference reference =>
      cases hget : record.objects.get? reference.actor <;>
        simp [ReadArgument.reread, hget, ReadArgument.ofGrip, Argument.reference?]
    | _ => simp [ReadArgument.reread, Argument.reference?]
  simp only [inlined, references, List.mem_filterMap, List.mem_map]
  constructor
  · rintro ⟨_, ⟨argument, hmem, rfl⟩, hgrip⟩
    obtain ⟨reference, href, hget⟩ := (hargument argument).1 hgrip
    exact ⟨reference, ⟨argument, hmem, href⟩, hget⟩
  · rintro ⟨reference, ⟨argument, hmem, href⟩, hget⟩
    exact ⟨_, ⟨argument, hmem, rfl⟩, (hargument argument).2 ⟨reference, href, hget⟩⟩

/-- The table comes back whole: each grip is in line or in the list. -/
theorem get?_reloaded (record : Record) (actor : ActorId) :
    record.reloaded.objects.get? actor = record.objects.get? actor := by
  refine ObjectTable.get?_ofList_eq ?_ ?_ actor
  · intro grip hgrip
    rcases List.mem_append.1 hgrip with hgrip | hgrip
    · exact ObjectTable.mem_toList_iff.1 (mem_unreferenced.1 hgrip).1
    · obtain ⟨reference, -, hget⟩ := mem_inlined.1 hgrip
      rw [ObjectTable.actor_of_get? hget]
      exact hget
  · intro grip hgrip
    rw [List.mem_append]
    by_cases href : ∃ reference ∈ record.references, reference.actor = grip.actor
    · obtain ⟨reference, hmem, hactor⟩ := href
      exact .inr (mem_inlined.2 ⟨reference, hmem, hactor ▸ ObjectTable.mem_toList_iff.1 hgrip⟩)
    · exact .inl (mem_unreferenced.2 ⟨hgrip, fun reference hmem hactor =>
        href ⟨reference, hmem, hactor⟩⟩)

/-! ### Records that were read -/

/-- No grip of a packet's list holds a null. -/
theorem nonnull_of_ofJson? {value : Json} {packet : Packet}
    (h : Packet.ofJson? value = some packet) {grip : Grip} (hgrip : grip ∈ packet.objects.getD []) :
    grip.Nonnull := by
  unfold Packet.ofJson? at h
  -- the list is the last field: the parts, the guard and fourteen fields come before it
  iterate 16 obtain ⟨_, -, h⟩ := Option.bind_eq_some_iff.1 h
  obtain ⟨objects, hobjects, h⟩ := Option.bind_eq_some_iff.1 h
  cases h
  cases objects with
  | none => cases hgrip
  | some grips =>
    obtain ⟨items, -, hitems⟩ := Parts.of_maybe hobjects
    obtain ⟨item, hitem⟩ := Json.of_mem_listOf? hitems hgrip
    exact Grip.nonnull_of_ofJson? hitem

/-- No grip of a record that was read holds a null. -/
theorem nonnull_of_toRecord {value : Json} {packet : Packet} {record : Record}
    (hpacket : Packet.ofJson? value = some packet) (h : packet.toRecord = .ok record) :
    record.Nonnull := by
  obtain ⟨_, -, arguments, harguments, kind, -, timestamp, -, rfl⟩ := Packet.toRecord_eq_ok_iff.1 h
  intro grip hgrip
  -- the grip was in the packet's list or in line with an argument
  have hmem : grip ∈ packet.objects.getD [] ++ arguments.filterMap ReadArgument.described := by
    have hget := ObjectTable.mem_toList_iff.1 hgrip
    simp only [Packet.record, ObjectTable.get?_ofList] at hget
    exact (List.mem_filter.1 (List.mem_of_getLast? hget)).1
  rcases List.mem_append.1 hmem with hlist | hinline
  · exact nonnull_of_ofJson? hpacket hlist
  · obtain ⟨values, -, hreads⟩ := Packet.readEach_eq_ok_iff.1 harguments
    rw [← ReadArgument.filterMap_inlineGrip? hreads] at hinline
    obtain ⟨value, -, hvalue⟩ := List.mem_filterMap.1 hinline
    obtain ⟨item, hitem⟩ := Json.exists_of_inlineGrip? hvalue
    exact Grip.nonnull_of_ofJson? hitem

/-- Says that references have the types of the grips that describe their actors. -/
def TypesAgree (record : Record) : Prop :=
  ∀ reference ∈ record.references, ∀ grip,
    record.objects.get? reference.actor = some grip → grip.type = reference.type

/-- Says that two records have the same fields, their tables being compared as maps. -/
structure Equiv (x y : Record) : Prop where
  kind : x.kind = y.kind
  arguments : x.arguments = y.arguments
  location : x.location = y.location
  timestamp : x.timestamp = y.timestamp
  innerWindowId : x.innerWindowId = y.innerWindowId
  styles : x.styles = y.styles
  resourceType : x.resourceType = y.resourceType
  isAlreadyExistingResource : x.isAlreadyExistingResource = y.isAlreadyExistingResource
  objects : ∀ actor, x.objects.get? actor = y.objects.get? actor

/-- Every packet in whole milliseconds that makes a record gives a record whose own packet
    reads back. -/
theorem ofPacket_toPacket_of_ofPacket {value : Json} {record : Record}
    (hread : ofPacket value = .ok record)
    (htime : ∀ packet, Packet.ofJson? value = some packet → packet.HasWholeMillis) :
    ofPacket record.toPacket = .ok record.reloaded := by
  obtain ⟨packet, hpacket, hrecord⟩ := ofPacket_eq_ok_iff.1 hread
  have hnonnull := nonnull_of_toRecord hpacket hrecord
  obtain ⟨_, -, _, -, _, -, timestamp, htimestamp, rfl⟩ := Packet.toRecord_eq_ok_iff.1 hrecord
  exact ofPacket_toPacket hnonnull (Packet.isWholeMillis_timestamp (htime packet hpacket) htimestamp)

theorem arguments_reloaded {record : Record} (h : record.TypesAgree) :
    record.reloaded.arguments = record.arguments := by
  refine (List.map_congr_left ?_).trans (List.map_id record.arguments)
  intro argument hmem
  cases argument with
  | reference reference =>
    cases hget : record.objects.get? reference.actor with
    | none => simp [ReadArgument.reread, hget]
    | some grip =>
      have href : reference ∈ record.references := List.mem_filterMap.2 ⟨_, hmem, rfl⟩
      have htype := h reference href grip hget
      have hactor := ObjectTable.actor_of_get? hget
      simp [ReadArgument.reread, hget, ReadArgument.ofGrip, htype, hactor]
  | _ => rfl

theorem equiv_reloaded {record : Record} (h : record.TypesAgree) : record.Equiv record.reloaded where
  kind := rfl
  arguments := (arguments_reloaded h).symm
  location := rfl
  timestamp := rfl
  innerWindowId := rfl
  styles := rfl
  resourceType := rfl
  isAlreadyExistingResource := rfl
  objects := fun actor => (record.get?_reloaded actor).symm

/-- A record that came from a packet comes back from its own packet, if its references have
    the types of their grips and its time is a whole millisecond. -/
theorem exists_ofPacket_toPacket_equiv {value : Json} {record : Record}
    (hread : ofPacket value = .ok record) (htypes : record.TypesAgree)
    (htime : ∀ packet, Packet.ofJson? value = some packet → packet.HasWholeMillis) :
    ∃ reloaded, ofPacket record.toPacket = .ok reloaded ∧ record.Equiv reloaded :=
  ⟨record.reloaded, ofPacket_toPacket_of_ofPacket hread htime, equiv_reloaded htypes⟩

/-- A call with a text, a symbol in line and a reference that nothing describes, beside the
    description of an object that no argument refers to. -/
def sampleJson : Json :=
  .object [("level", .string "warn"), ("timeStamp", .int 1700000000125),
    ("arguments", .array [.string "seen", .object [("type", .string "symbol"), ("actor", .string "s")],
      .object [("actorID", .string "gone")]]),
    ("objects", .array [.object [("type", .string "object"), ("actor", .string "o")]])]

/-- The object of the sample, with what its packet leaves to defaults. -/
def sampleObject : Grip :=
  .object {
    actor := ⟨"o"⟩
    className := "Object"
    ownPropertyLength := none
    extensible := true
    frozen := false
    sealed := false
    isError := false
    displayString := none
    preview := none
    ownProperties := none }

/-- The record of the sample. -/
def sample : Record where
  kind := .bare .warn
  arguments := [.text "seen", .reference ⟨⟨"s"⟩, .symbol⟩, .reference ⟨⟨"gone"⟩, .object⟩]
  timestamp := ⟨1700000000125000, by decide⟩
  objects := .ofList [sampleObject, .symbol ⟨"s"⟩ none]

theorem mem_references_sample {reference : Reference} (h : reference ∈ sample.references) :
    reference = ⟨⟨"s"⟩, .symbol⟩ ∨ reference = ⟨⟨"gone"⟩, .object⟩ := by
  rcases List.mem_cons.1 h with h | h
  · exact .inl h
  · exact .inr (List.mem_singleton.1 h)

theorem sample_typesAgree : sample.TypesAgree := by
  intro reference hmem grip hget
  rcases mem_references_sample hmem with rfl | rfl
  · cases hget
    rfl
  · cases hget

theorem sample_comes_back : ofPacket sampleJson = .ok sample ∧
    ∃ reloaded, ofPacket sample.toPacket = .ok reloaded ∧ sample.Equiv reloaded := by
  have hread : ofPacket sampleJson = .ok sample := by rfl
  have htime : ∀ packet, Packet.ofJson? sampleJson = some packet → packet.HasWholeMillis := by
    intro packet hpacket ms hms
    cases hpacket
    cases hms
    exact ⟨1700000000125, by decide, Binary64.toRat_ofInt (by decide)⟩
  exact ⟨hread, exists_ofPacket_toPacket_equiv hread sample_typesAgree htime⟩

end Record

end Console
