import Console.Proofs.Record.RoundTrip

/-! # Packets argument by argument

    Whether an argument of a packet is read, and as what, is decided by the argument alone.
    The other arguments and the rest of the packet have no part in it:

    - `Packet.toRecord_eq_error_iff`: arguments are refused before a missing counter or timer
      is, and that before a time out of range,
    - `Json.withArguments`: the same packet with other arguments,
    - `Record.argument_by_argument`: a packet against the packets that have one of its
      arguments each.
-/

namespace Console

/-! ### Stages of reading -/

/-- Says that a level has a counter as its payload. -/
def Level.IsCounting (level : Level) : Prop := level = .count ∨ level = .countReset

/-- Says that a level has a timer as its payload. -/
def Level.IsTiming (level : Level) : Prop := level = .time ∨ level = .timeLog ∨ level = .timeEnd

/-- Says that a packet of the level would have to have a counter, and has none. -/
def Packet.LacksCounter (packet : Packet) (level : Level) : Prop :=
  level.IsCounting ∧ packet.counter = none

/-- Says that a packet of the level would have to have a timer, and has none. -/
def Packet.LacksTimer (packet : Packet) (level : Level) : Prop :=
  level.IsTiming ∧ packet.timer = none

namespace Packet

variable {packet : Packet} {level : Level} {cause : Malformation}

/-- A kind lacks its counter or its timer, and nothing else. -/
theorem kind_eq_error_iff : Kind.ofPacket level packet = .error cause ↔
    packet.LacksCounter level ∧ cause = .missingCounter level ∨
    packet.LacksTimer level ∧ cause = .missingTimer level := by
  unfold LacksCounter LacksTimer Level.IsCounting Level.IsTiming
  cases level with
  | count | countReset =>
    cases hcounter : packet.counter <;> simp [Kind.ofPacket, hcounter, eq_comm]
  | time | timeLog | timeEnd =>
    cases htimer : packet.timer <;> simp [Kind.ofPacket, htimer, eq_comm]
  | _ => simp [Kind.ofPacket]

theorem exists_kind_eq_ok_iff : (∃ kind, Kind.ofPacket level packet = .ok kind) ↔
    ¬ packet.LacksCounter level ∧ ¬ packet.LacksTimer level := by
  constructor
  · rintro ⟨kind, hkind⟩
    constructor
    · intro hlacks
      rw [kind_eq_error_iff.2 (.inl ⟨hlacks, rfl⟩)] at hkind
      cases hkind
    · intro hlacks
      rw [kind_eq_error_iff.2 (.inr ⟨hlacks, rfl⟩)] at hkind
      cases hkind
  · rintro ⟨hcounter, htimer⟩
    cases hkind : Kind.ofPacket level packet with
    | ok kind => exact ⟨kind, rfl⟩
    | error cause =>
      rcases kind_eq_error_iff.1 hkind with ⟨hlacks, -⟩ | ⟨hlacks, -⟩
      · exact absurd hlacks hcounter
      · exact absurd hlacks htimer

theorem timestamp_eq_error_iff : packet.timestamp = .error cause ↔
    ∃ ms, packet.timeStamp = some ms ∧ Timestamp.ofMillis? ms = none ∧ cause = .timestamp ms := by
  unfold timestamp
  cases packet.timeStamp with
  | none => simp
  | some ms => cases hread : Timestamp.ofMillis? ms <;> simp [hread, eq_comm]

/-- Arguments come before the payload of the level, and that before the time. -/
theorem toRecord_eq_error_iff (hlevel : packet.readLevel = .ok level) :
    packet.toRecord = .error cause ↔
      packet.readEach = .error cause ∨
      (∃ arguments, packet.readEach = .ok arguments) ∧
        (Kind.ofPacket level packet = .error cause ∨
          (∃ kind, Kind.ofPacket level packet = .ok kind) ∧ packet.timestamp = .error cause) := by
  simp only [toRecord_eq, bind_eq_error_iff, hlevel, pure, Except.pure, reduceCtorEq, and_false,
    exists_const, or_false, false_or, Except.ok.injEq, exists_eq_left']
  constructor
  · rintro (hfault | ⟨arguments, hread, hfault | ⟨kind, hkind, hfault⟩⟩)
    · exact .inl hfault
    · exact .inr ⟨⟨arguments, hread⟩, .inl hfault⟩
    · exact .inr ⟨⟨arguments, hread⟩, .inr ⟨⟨kind, hkind⟩, hfault⟩⟩
  · rintro (hfault | ⟨⟨arguments, hread⟩, hfault | ⟨⟨kind, hkind⟩, hfault⟩⟩)
    · exact .inl hfault
    · exact .inr ⟨arguments, hread, .inl hfault⟩
    · exact .inr ⟨arguments, hread, .inr ⟨kind, hkind, hfault⟩⟩

end Packet

/-! ### The same packet with other arguments -/

/-- The packet with other arguments, its other fields being as they are. -/
def Json.withArguments (arguments : List Json) : Json → Json
  | .object members => .object (insertEntry "arguments" (.array arguments) members)
  | .array items => .array (items.set 1 (.array arguments))
  | value => value

/-- The fields of a packet with other arguments. -/
def Packet.withArguments (arguments : List Json) (packet : Packet) : Packet :=
  { packet with arguments := some arguments }

/-- The parts of a packet with other arguments. -/
def Parts.withArguments (arguments : List Json) : Parts → Parts
  | named members => named (insertEntry "arguments" (.array arguments) members)
  | listed items => listed (items.set 1 (.array arguments))

namespace Parts

variable {α : Type} {parts : Parts} {arguments : List Json}

theorem ofJson?_withArguments {count : Nat} {value : Json} (h : ofJson? count value = some parts) :
    ofJson? count (value.withArguments arguments) = some (parts.withArguments arguments) := by
  cases value with
  | object members =>
    cases h
    rfl
  | array items =>
    simp only [ofJson?] at h
    split at h
    · next hfits =>
      cases h
      simp [Json.withArguments, ofJson?, hfits, withArguments]
    · cases h
  | _ => cases h

theorem reachArguments_withArguments :
    (parts.withArguments arguments).reachArguments = parts.reachArguments := by
  cases parts with
  | named => rfl
  | listed items => simp [withArguments, reachArguments]

theorem maybe_withArguments_self {arguments : List Json} (h : parts.reachArguments) :
    (parts.withArguments arguments).maybe 1 "arguments" Json.items? = some (some arguments) := by
  have hfield : (parts.withArguments arguments).field? 1 "arguments" = some (.array arguments) := by
    cases parts with
    | named members => exact lookup_insertEntry_self _ _ _
    | listed items => exact List.getElem?_set_self (of_decide_eq_true h)
  simp [maybe, hfield]

theorem field?_withArguments_ne {index : Nat} {name : String} (hindex : 1 ≠ index)
    (hname : name ≠ "arguments") :
    (parts.withArguments arguments).field? index name = parts.field? index name := by
  cases parts with
  | named members => exact lookup_insertEntry_ne _ _ hname
  | listed items => exact List.getElem?_set_ne hindex

theorem maybe_withArguments_ne {index : Nat} {name : String} {read : Json → Option α}
    (hindex : 1 ≠ index) (hname : name ≠ "arguments") :
    (parts.withArguments arguments).maybe index name read = parts.maybe index name read := by
  unfold maybe
  rw [field?_withArguments_ne hindex hname]

theorem defaulted_withArguments_ne {index : Nat} {name : String} {read : Json → Option α}
    {default : α} (hindex : 1 ≠ index) (hname : name ≠ "arguments") :
    (parts.withArguments arguments).defaulted index name read default =
      parts.defaulted index name read default := by
  unfold defaulted
  rw [field?_withArguments_ne hindex hname]

end Parts

/-- The packet with other arguments has the same other fields. -/
theorem Packet.ofJson?_withArguments {value : Json} {packet : Packet}
    (h : Packet.ofJson? value = some packet) (arguments : List Json) :
    Packet.ofJson? (value.withArguments arguments) = some (packet.withArguments arguments) := by
  unfold Packet.ofJson? at h ⊢
  obtain ⟨parts, hparts, h⟩ := Option.bind_eq_some_iff.1 h
  refine Option.bind_eq_some_iff.2 ⟨_, Parts.ofJson?_withArguments hparts, ?_⟩
  obtain ⟨_, hguard, h⟩ := Option.bind_eq_some_iff.1 h
  refine Option.bind_eq_some_iff.2 ⟨_, Parts.reachArguments_withArguments ▸ hguard, ?_⟩
  obtain ⟨level, hlevel, h⟩ := Option.bind_eq_some_iff.1 h
  refine Option.bind_eq_some_iff.2
    ⟨level, (Parts.maybe_withArguments_ne (by decide) (by decide)).trans hlevel, ?_⟩
  obtain ⟨_, -, h⟩ := Option.bind_eq_some_iff.1 h
  have hreach : parts.reachArguments := by
    by_contra hnot
    simp [guard, hnot] at hguard
  refine Option.bind_eq_some_iff.2 ⟨_, Parts.maybe_withArguments_self hreach, ?_⟩
  -- eleven optional fields lie between the arguments and the flag, and one behind it
  iterate 11
    obtain ⟨field, hfield, h⟩ := Option.bind_eq_some_iff.1 h
    refine Option.bind_eq_some_iff.2
      ⟨field, (Parts.maybe_withArguments_ne (by decide) (by decide)).trans hfield, ?_⟩
  obtain ⟨existing, hexisting, h⟩ := Option.bind_eq_some_iff.1 h
  refine Option.bind_eq_some_iff.2
    ⟨existing, (Parts.defaulted_withArguments_ne (by decide) (by decide)).trans hexisting, ?_⟩
  obtain ⟨objects, hobjects, h⟩ := Option.bind_eq_some_iff.1 h
  refine Option.bind_eq_some_iff.2
    ⟨objects, (Parts.maybe_withArguments_ne (by decide) (by decide)).trans hobjects, ?_⟩
  cases h
  rfl

namespace Record

variable {value : Json} {packet : Packet} {level : Level} {values : List Json}

/-! ### What a packet is refused for -/

theorem ofPacket_eq_error_iff (hfields : Packet.ofJson? value = some packet) {cause : Malformation} :
    ofPacket value = .error (.malformed cause) ↔ packet.toRecord = .error cause := by
  simp only [ofPacket, hfields]
  cases packet.toRecord with
  | error => simp [Except.mapError]
  | ok => simp [Except.mapError]

/-- A packet of a known level is refused for an argument exactly if it is the first that is
    refused. -/
theorem ofPacket_argument_iff (hfields : Packet.ofJson? value = some packet)
    (hlevel : packet.readLevel = .ok level) (hvalues : packet.arguments = some values) {i : Nat}
    {fault : ArgumentFault} :
    ofPacket value = .error (.malformed (.argument i fault)) ↔
      ReadArgument.FirstRefused values i fault := by
  rw [ofPacket_eq_error_iff hfields, Packet.toRecord_eq_error_iff hlevel]
  simp only [Packet.readEach, hvalues, ReadArgument.listOfJson_eq_error_iff,
    Packet.kind_eq_error_iff, Packet.timestamp_eq_error_iff, Nat.zero_add]
  constructor
  · rintro (⟨j, reason, hrefused, hcause⟩ | ⟨-, (⟨-, hcause⟩ | ⟨-, hcause⟩) |
      ⟨-, ms, -, -, hcause⟩⟩)
    · cases hcause
      exact hrefused
    all_goals cases hcause
  · intro hrefused
    exact .inl ⟨i, fault, hrefused, rfl⟩

/-- A packet of a known level is refused for something else than an argument exactly if its
    arguments are read and its payload, or else its time, is refused. -/
theorem ofPacket_late_iff (hfields : Packet.ofJson? value = some packet)
    (hlevel : packet.readLevel = .ok level) {cause : Malformation}
    (hcause : packet.readEach ≠ .error cause) :
    ofPacket value = .error (.malformed cause) ↔
      (∃ reads, packet.readEach = .ok reads) ∧
        (Kind.ofPacket level packet = .error cause ∨
          ¬ packet.LacksCounter level ∧ ¬ packet.LacksTimer level ∧
            packet.timestamp = .error cause) := by
  rw [ofPacket_eq_error_iff hfields, Packet.toRecord_eq_error_iff hlevel,
    Packet.exists_kind_eq_ok_iff, and_assoc, or_iff_right hcause]

/-- A packet with one argument is refused for what is wrong with the argument. -/
theorem ofPacket_alone_iff (hfields : Packet.ofJson? value = some packet)
    (hlevel : packet.readLevel = .ok level) (a : Json) (fault : ArgumentFault) :
    ofPacket (value.withArguments [a]) = .error (.malformed (.argument 0 fault)) ↔
      ReadArgument.ofJson a = .error fault := by
  have hsame : (packet.withArguments [a]).readLevel = .ok level := hlevel
  rw [ofPacket_argument_iff (Packet.ofJson?_withArguments hfields [a]) hsame rfl]
  constructor
  · rintro ⟨⟨found, hfound, hfault⟩, -⟩
    cases hfound
    exact hfault
  · intro hfault
    exact ⟨⟨a, rfl, hfault⟩, fun j hj => absurd hj (Nat.not_lt_zero j)⟩

/-- A packet of a known level is read if its arguments are, its payload is there and its time
    is in range. -/
theorem ofPacket_eq_ok_of_stages {reads : List ReadArgument} {kind : Kind} {timestamp : Timestamp}
    (hfields : Packet.ofJson? value = some packet) (hlevel : packet.readLevel = .ok level)
    (hreads : packet.readEach = .ok reads) (hkind : Kind.ofPacket level packet = .ok kind)
    (htime : packet.timestamp = .ok timestamp) :
    ofPacket value = .ok (packet.record kind reads timestamp) :=
  ofPacket_eq_ok_iff.2 ⟨packet, hfields, Packet.toRecord_eq_ok_iff.2
    ⟨level, hlevel, reads, hreads, kind, hkind, timestamp, htime, rfl⟩⟩

/-- The arguments of a record are what each of them gives in a packet by itself. -/
theorem arguments_alone (hfields : Packet.ofJson? value = some packet)
    (hvalues : packet.arguments = some values) {record : Record} (hread : ofPacket value = .ok record) :
    record.arguments.length = values.length ∧ ∀ (i : Nat) (a : Json), values[i]? = some a →
      ∃ single argument, ofPacket (value.withArguments [a]) = .ok single ∧
        single.arguments = [argument] ∧ record.arguments[i]? = some argument := by
  obtain ⟨found, hfound, hrecord⟩ := ofPacket_eq_ok_iff.1 hread
  rw [hfields] at hfound
  cases hfound
  obtain ⟨level, hlevel, reads, hreads, kind, hkind, timestamp, htime, rfl⟩ :=
    Packet.toRecord_eq_ok_iff.1 hrecord
  simp only [Packet.readEach, hvalues] at hreads
  have hforall := ReadArgument.listOfJson_eq_ok_iff.1 hreads
  refine ⟨(List.length_map _).trans hforall.length_eq.symm, fun i a ha => ?_⟩
  obtain ⟨read, hget, hargument⟩ := exists_getElem?_of_forall₂ hforall ha
  -- by itself, the argument is read in the same way, and the other fields are the same
  have hsingle : (packet.withArguments [a]).readEach = .ok [read] :=
    ReadArgument.listOfJson_eq_ok_iff.2 (.cons hargument .nil)
  refine ⟨_, read.argument, ofPacket_eq_ok_of_stages (Packet.ofJson?_withArguments hfields [a])
    hlevel hsingle hkind htime, rfl, ?_⟩
  show (reads.map ReadArgument.argument)[i]? = some read.argument
  rw [List.getElem?_map, hget]
  rfl

/-- In a packet of well typed fields and a known level each argument is read as if it were the
    only one. The packet is refused for an argument exactly if one of them is refused by
    itself, and then for the first such one with its own fault, which is the same in every
    other packet. If none is, the record has the arguments that each gives by itself. A
    missing counter or timer comes next, and a time out of range last. -/
theorem argument_by_argument (hfields : Packet.ofJson? value = some packet)
    (hlevel : packet.readLevel = .ok level) (hvalues : packet.arguments = some values) :
    let alone := fun a => ofPacket (value.withArguments [a])
    let refused := fun a => ∃ fault, alone a = .error (.malformed (.argument 0 fault))
    ((∃ i fault, ofPacket value = .error (.malformed (.argument i fault))) ↔
      ∃ a ∈ values, refused a) ∧
    (∀ i fault, ofPacket value = .error (.malformed (.argument i fault)) ↔
      (∃ a : Json, values[i]? = some a ∧ alone a = .error (.malformed (.argument 0 fault))) ∧
        ∀ j < i, ∀ a : Json, values[j]? = some a → ¬ refused a) ∧
    (∀ other packet' level', Packet.ofJson? other = some packet' → packet'.readLevel = .ok level' →
      ∀ a fault, ofPacket (other.withArguments [a]) = .error (.malformed (.argument 0 fault)) ↔
        alone a = .error (.malformed (.argument 0 fault))) ∧
    (∀ record, ofPacket value = .ok record →
      record.arguments.length = values.length ∧ ∀ (i : Nat) (a : Json), values[i]? = some a →
        ∃ single argument, alone a = .ok single ∧ single.arguments = [argument] ∧
          record.arguments[i]? = some argument) ∧
    (∀ l, ofPacket value = .error (.malformed (.missingCounter l)) ↔
      (∀ a ∈ values, ¬ refused a) ∧ packet.LacksCounter level ∧ l = level) ∧
    (∀ l, ofPacket value = .error (.malformed (.missingTimer l)) ↔
      (∀ a ∈ values, ¬ refused a) ∧ packet.LacksTimer level ∧ l = level) ∧
    (∀ ms, ofPacket value = .error (.malformed (.timestamp ms)) ↔
      (∀ a ∈ values, ¬ refused a) ∧ ¬ packet.LacksCounter level ∧
        ¬ packet.LacksTimer level ∧ packet.timeStamp = some ms ∧ Timestamp.ofMillis? ms = none) := by
  intro alone refused
  have halone : ∀ a fault, alone a = .error (.malformed (.argument 0 fault)) ↔
      ReadArgument.ofJson a = .error fault := ofPacket_alone_iff hfields hlevel
  have hreadable : (∀ a ∈ values, ¬ refused a) ↔ ∃ reads, packet.readEach = .ok reads := by
    simp only [Packet.readEach, hvalues, ReadArgument.exists_listOfJson_eq_ok_iff, refused,
      halone, not_exists]
  have hfirst : ∀ i fault, ofPacket value = .error (.malformed (.argument i fault)) ↔
      (∃ a : Json, values[i]? = some a ∧ alone a = .error (.malformed (.argument 0 fault))) ∧
        ∀ j < i, ∀ a : Json, values[j]? = some a → ¬ refused a := by
    intro i fault
    rw [ofPacket_argument_iff hfields hlevel hvalues]
    simp only [ReadArgument.FirstRefused, halone, refused, not_exists]
  -- what is reported late is not the fault of an argument
  have hlate : ∀ cause, (∀ i fault, cause ≠ .argument i fault) →
      (ofPacket value = .error (.malformed cause) ↔ (∀ a ∈ values, ¬ refused a) ∧
        ((packet.LacksCounter level ∧ cause = .missingCounter level ∨
            packet.LacksTimer level ∧ cause = .missingTimer level) ∨
          ¬ packet.LacksCounter level ∧ ¬ packet.LacksTimer level ∧
            packet.timestamp = .error cause)) := by
    intro cause hcause
    have hlist : packet.readEach ≠ .error cause := by
      intro hlist
      simp only [Packet.readEach, hvalues] at hlist
      obtain ⟨i, fault, -, heq⟩ := ReadArgument.listOfJson_eq_error_iff.1 hlist
      exact hcause _ _ heq
    rw [ofPacket_late_iff hfields hlevel hlist, hreadable, Packet.kind_eq_error_iff]
  refine ⟨?_, hfirst, ?_, fun record => arguments_alone hfields hvalues, ?_, ?_, ?_⟩
  · constructor
    · rintro ⟨i, fault, hrefused⟩
      obtain ⟨⟨a, ha, hfault⟩, -⟩ := (hfirst i fault).1 hrefused
      exact ⟨a, List.mem_of_getElem? ha, fault, hfault⟩
    · intro hsome
      cases hlist : packet.readEach with
      | ok reads =>
        obtain ⟨a, hmem, hrefused⟩ := hsome
        exact absurd hrefused (hreadable.2 ⟨reads, hlist⟩ a hmem)
      | error cause =>
        have hlist' := hlist
        simp only [Packet.readEach, hvalues] at hlist'
        obtain ⟨i, fault, hrefused, -⟩ := ReadArgument.listOfJson_eq_error_iff.1 hlist'
        exact ⟨i, fault, (ofPacket_argument_iff hfields hlevel hvalues).2 hrefused⟩
  · intro other packet' level' hfields' hlevel' a fault
    rw [halone, ofPacket_alone_iff hfields' hlevel']
  · intro l
    rw [hlate _ (by simp), Packet.timestamp_eq_error_iff]
    simp
  · intro l
    rw [hlate _ (by simp), Packet.timestamp_eq_error_iff]
    simp
  · intro ms
    rw [hlate _ (by simp), Packet.timestamp_eq_error_iff]
    simp

/-- A packet with five faults: of its four arguments the last three cannot be read, its
    counter is missing and its time is out of range. -/
def faultyJson : Json :=
  .object [("level", .string "count"), ("timeStamp", .int 10000000000000000),
    ("arguments", .array [.object [("actor", .string "s"), ("type", .string "symbol")],
      .array [], .object [], .object [("type", .string "symbol")]])]

/-- The packet with five faults is refused for the empty array. -/
theorem faulty_refused : ∃ packet values, Packet.ofJson? faultyJson = some packet ∧
    packet.readLevel = .ok .count ∧ packet.arguments = some values ∧ values.length = 4 ∧
    ofPacket faultyJson = .error (.malformed (.argument 1 .bareArray)) := by
  have hfields : Packet.ofJson? faultyJson = some _ := rfl
  obtain ⟨-, hfirst, -⟩ := argument_by_argument hfields rfl rfl
  refine ⟨_, _, hfields, rfl, rfl, rfl, (hfirst 1 .bareArray).2 ⟨⟨.array [], rfl, rfl⟩, ?_⟩⟩
  intro j hj a ha
  obtain rfl : j = 0 := by omega
  cases ha
  -- by itself the description of a symbol leaves only the counter to be missed
  rintro ⟨fault, hfault⟩
  cases hfault

end Record

end Console
