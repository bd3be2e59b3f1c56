import Console.Message.Basic
import Console.Proofs.OrderedMap

/-! # The packet of a resolved record

    A resolved record is shown as the packet that its record writes, with its parameters for
    arguments and without the grips that no argument refers to. All other members stay as they
    are, but not all stay where they are: a member that is taken out leaves its place to the
    last one.

    - `Json.withMember`, `Json.withoutMember`: an object with one member replaced or left out,
      in the order that it had,
    - `Json.removeMember_middle`: what taking out a member does to the others,
    - `Record.packetMembers_eq`: the members of a packet around the grips that it lists,
    - `ResolvedRecord.members_toJson`: the packet of a resolved record has the members of its
      record's packet, in their order exactly if that packet lists no grips.
-/

namespace Console

namespace Json

variable {name : String} {value : Json} {member last : String × Json}
  {members before middle : List (String × Json)}

/-! ### Editing objects -/

/-- The members with another value under `name`, each in its place. -/
def withMember (name : String) (value : Json) (members : List (String × Json)) :
    List (String × Json) :=
  members.map fun member => if member.1 = name then (name, value) else member

/-- The members without `name`, in their order. -/
def withoutMember (name : String) (members : List (String × Json)) : List (String × Json) :=
  members.filter fun member => member.1 ≠ name

theorem ne_of_notMem (h : name ∉ members.map Prod.fst) (hmember : member ∈ members) :
    member.1 ≠ name := by
  intro heq
  apply h
  rw [← heq]
  exact List.mem_map_of_mem hmember

/-- What is put in place of a member changes no object that lacks it. -/
theorem map_ite_of_notMem (h : name ∉ members.map Prod.fst) (other : String × Json) :
    members.map (fun member => if member.1 = name then other else member) = members := by
  refine (List.map_congr_left ?_).trans (List.map_id members)
  intro member hmember
  exact if_neg (ne_of_notMem h hmember)

theorem withoutMember_of_notMem (h : name ∉ members.map Prod.fst) :
    withoutMember name members = members := by
  apply List.filter_eq_self.2
  intro member hmember
  exact decide_eq_true (ne_of_notMem h hmember)

/-- Nothing is taken out of an object that lacks the member. -/
theorem removeMember_of_notMem (h : name ∉ members.map Prod.fst) :
    removeMember name members = members := by
  unfold removeMember
  split
  · next hlast => exact (List.getLast?_eq_none_iff.1 hlast).symm
  · next last hlast =>
    rw [if_neg (ne_of_notMem h (List.mem_of_getLast? hlast)), lookupEntry_eq_none_iff.2 h]
    rfl

/-- The last member moves into the place of the one that is taken out, and the others stay in
    their places. -/
theorem removeMember_middle (hbefore : name ∉ before.map Prod.fst)
    (hmiddle : name ∉ middle.map Prod.fst) (hlast : last.1 ≠ name) :
    removeMember name (before ++ (name, value) :: (middle ++ [last])) =
      before ++ last :: middle := by
  have hsplit : before ++ (name, value) :: (middle ++ [last]) =
      (before ++ (name, value) :: middle) ++ [last] := by
    rw [List.append_assoc, List.cons_append]
  have hfound : (lookupEntry name (before ++ (name, value) :: (middle ++ [last]))).isSome := by
    rw [lookupEntry_append, lookupEntry_eq_none_iff.2 hbefore]
    simp [lookupEntry]
  unfold removeMember
  rw [hfound, hsplit, List.getLast?_concat, List.dropLast_concat]
  show (if last.1 = name then _ else _) = _
  rw [if_neg hlast, if_pos rfl, List.map_append, List.map_cons, map_ite_of_notMem hbefore,
    map_ite_of_notMem hmiddle, if_pos rfl]

end Json

/-! ### The members of packets -/

namespace Record

/-- The members of a packet between its arguments and the grips that it lists. -/
def details (record : Record) : List (String × Json) :=
  [("columnNumber", .nat record.location.columnNumber.toNat),
    ("filename", .string record.location.filename),
    ("level", .string record.level.name),
    ("lineNumber", .nat record.location.lineNumber.toNat),
    ("timeStamp", record.timestamp.toJson)]
  ++ Json.optional "sourceId" (record.location.sourceId.map .string)
  ++ Json.optional "innerWindowID" (record.innerWindowId.map fun n => .nat n.toNat)
  ++ Json.optional "counter" (record.kind.counter?.map Counter.toJson)
  ++ Json.optional "timer" (record.kind.timer?.map Timer.toJson)
  ++ Json.optional "stacktrace"
    (record.kind.stack?.map fun stack => .array (stack.map StackFrame.toJson))
  ++ nonempty "styles" (record.styles.map .string)

/-- What the names of these members are taken from, in their order. -/
def detailNames : List String :=
  ["columnNumber", "filename", "level", "lineNumber", "timeStamp"] ++ ["sourceId"] ++
    ["innerWindowID"] ++ ["counter"] ++ ["timer"] ++ ["stacktrace"] ++ ["styles"]

/-- The member that says what kind of resource a record is. -/
def typeMember (record : Record) : String × Json :=
  ("resourceType", .string record.resourceType)

/-- The member that says whether the record was there before. -/
def existingMember (record : Record) : String × Json :=
  ("isAlreadyExistingResource", .bool record.isAlreadyExistingResource)

/-- The arguments come first, and behind the listed grips there are two members more. -/
theorem packetMembers_eq (record : Record) (arguments : List Json) :
    record.packetMembers arguments =
      ("arguments", .array arguments) :: record.details
        ++ nonempty "objects" (record.unreferenced.map Grip.toJson)
        ++ [record.typeMember, record.existingMember] := rfl

theorem names_optional (name : String) (value : Option Json) :
    ((Json.optional name value).map Prod.fst).Sublist [name] := by
  cases value with
  | none => exact List.nil_sublist _
  | some value => exact List.Sublist.refl _

theorem names_nonempty (name : String) (items : List Json) :
    ((nonempty name items).map Prod.fst).Sublist [name] := by
  cases items with
  | nil => exact List.nil_sublist _
  | cons item items => exact List.Sublist.refl _

/-- A member that is left out leaves out its name. -/
theorem names_details (record : Record) : (record.details.map Prod.fst).Sublist detailNames := by
  simp only [details, detailNames, List.map_append]
  exact ((((((List.Sublist.refl _).append (names_optional _ _)).append (names_optional _ _)).append
    (names_optional _ _)).append (names_optional _ _)).append (names_optional _ _)).append
      (names_nonempty _ _)

theorem notMem_details {record : Record} {name : String} (h : name ∉ detailNames) :
    name ∉ record.details.map Prod.fst := by
  intro hmem
  exact h (record.names_details.subset hmem)

/-- No packet has two members of one name. -/
theorem nodup_packetMembers (record : Record) (arguments : List Json) :
    ((record.packetMembers arguments).map Prod.fst).Nodup := by
  have hnames : (["arguments"] ++ detailNames ++ ["objects"] ++
      ["resourceType", "isAlreadyExistingResource"]).Nodup := by decide
  refine List.Nodup.sublist ?_ hnames
  rw [packetMembers_eq, List.map_append, List.map_append, List.map_cons]
  show ((["arguments"] ++ record.details.map Prod.fst) ++ _ ++ _).Sublist _
  exact (((List.Sublist.refl _).append record.names_details).append (names_nonempty _ _)).append
    (List.Sublist.refl _)

/-- Packets of one record differ in their arguments only. -/
theorem withMember_packetMembers (record : Record) (arguments others : List Json) :
    Json.withMember "arguments" (.array others) (record.packetMembers arguments) =
      record.packetMembers others := by
  have hnodup := record.nodup_packetMembers arguments
  rw [packetMembers_eq, List.cons_append, List.cons_append, List.map_cons, List.nodup_cons] at hnodup
  rw [packetMembers_eq, packetMembers_eq, List.cons_append, List.cons_append, List.cons_append,
    List.cons_append, Json.withMember, List.map_cons, if_pos rfl, Json.map_ite_of_notMem hnodup.1]

/-- A packet without the grips that it lists. -/
theorem withoutMember_packetMembers (record : Record) (arguments : List Json) :
    Json.withoutMember "objects" (record.packetMembers arguments) =
      ("arguments", .array arguments) :: record.details
        ++ [record.typeMember, record.existingMember] := by
  have hdetails : Json.withoutMember "objects" record.details = record.details :=
    Json.withoutMember_of_notMem (notMem_details (by decide))
  have hlisted : Json.withoutMember "objects"
      (nonempty "objects" (record.unreferenced.map Grip.toJson)) = [] := by
    cases record.unreferenced with
    | nil => rfl
    | cons grip grips => rfl
  unfold Json.withoutMember at hdetails hlisted ⊢
  rw [packetMembers_eq, List.filter_append, List.filter_append, hlisted, List.append_nil]
  show (("arguments", _) :: List.filter _ record.details) ++ _ = _
  rw [hdetails]
  rfl

/-- Taking out the grips that a packet lists exchanges the two members behind them. -/
theorem removeMember_packetMembers (record : Record) (arguments : List Json) :
    Json.removeMember "objects" (record.packetMembers arguments) =
      ("arguments", .array arguments) :: record.details ++
        (if record.unreferenced = [] then [record.typeMember, record.existingMember]
          else [record.existingMember, record.typeMember]) := by
  have hfront : "objects" ∉ (("arguments", .array arguments) :: record.details).map Prod.fst := by
    rw [List.map_cons, List.mem_cons, not_or]
    exact ⟨show "objects" ≠ "arguments" by decide, notMem_details (by decide)⟩
  rw [packetMembers_eq]
  cases hspare : record.unreferenced with
  | nil =>
    -- no grips are listed, so there is nothing to take out
    have hnot : "objects" ∉ ((("arguments", .array arguments) :: record.details) ++
        [record.typeMember, record.existingMember]).map Prod.fst := by
      rw [List.map_append, List.mem_append, not_or]
      exact ⟨hfront, show "objects" ∉ ["resourceType", "isAlreadyExistingResource"] by decide⟩
    rw [if_pos rfl]
    show Json.removeMember "objects" ((_ ++ []) ++ _) = _
    rw [List.append_nil, Json.removeMember_of_notMem hnot]
  | cons grip grips =>
    rw [if_neg (List.cons_ne_nil _ _), List.append_assoc]
    have hmiddle : "objects" ∉ [record.typeMember].map Prod.fst :=
      show "objects" ∉ ["resourceType"] by decide
    have hlast : record.existingMember.1 ≠ "objects" :=
      show "isAlreadyExistingResource" ≠ "objects" by decide
    exact Json.removeMember_middle hfront hmiddle hlast

end Record

/-! ### Resolved records -/

namespace ResolvedRecord

/-- The packet of a resolved record has the members of its record's packet but `objects`, with
    the parameters in the place of the arguments. They are in the same order exactly if no grip
    is unreferenced, so that there is no `objects`; else the last two are exchanged. -/
theorem members_toJson (packet : ResolvedRecord) :
    ∃ members shown,
      packet.record.toPacket = .object members ∧ (members.map Prod.fst).Nodup ∧
      packet.toJson = .object shown ∧
      let kept := Json.withoutMember "objects"
        (Json.withMember "arguments" (.array (packet.arguments.map Parameter.toJson)) members)
      shown.Perm kept ∧
      (shown = kept ↔ packet.record.unreferenced = []) ∧
      (packet.record.unreferenced ≠ [] → ∃ front,
        kept = front ++ [("resourceType", .string packet.record.resourceType),
          ("isAlreadyExistingResource", .bool packet.record.isAlreadyExistingResource)] ∧
        shown = front ++
          [("isAlreadyExistingResource", .bool packet.record.isAlreadyExistingResource),
            ("resourceType", .string packet.record.resourceType)]) := by
  obtain ⟨record, parameters⟩ := packet
  let front := ("arguments", Json.array (parameters.map Parameter.toJson)) :: record.details
  refine ⟨_, _, rfl, record.nodup_packetMembers _, rfl, ?_⟩
  rw [record.withMember_packetMembers, record.withoutMember_packetMembers,
    record.removeMember_packetMembers]
  intro kept
  by_cases hspare : record.unreferenced = []
  · rw [if_pos hspare]
    exact ⟨List.Perm.refl _, ⟨fun _ => hspare, fun _ => rfl⟩, fun hne => absurd hspare hne⟩
  · rw [if_neg hspare]
    refine ⟨?_, ⟨fun heq => ?_, fun hnil => absurd hnil hspare⟩, fun _ => ⟨front, rfl, rfl⟩⟩
    · exact List.Perm.append_left front (List.Perm.swap _ _ _)
    · -- in the other order the last two members would have each other's names
      have hlast := List.append_cancel_left (show front ++ _ = front ++ _ from heq)
      have hname : "isAlreadyExistingResource" = "resourceType" :=
        congrArg Prod.fst (List.cons.inj hlast).1
      exact absurd hname (by decide)

/-- A call with a text, in a record that describes a symbol which nothing refers to. -/
def spareCall : ResolvedRecord where
  record := {
    kind := .bare .log
    arguments := [.text "x"]
    objects := .ofList [.symbol ⟨"s"⟩ none] }
  arguments := [.text "x"]

/-- The packet of the call with a spare symbol has its last members in another order. -/
theorem members_toJson_spareCall : spareCall.record.unreferenced ≠ [] ∧
    ∃ members shown,
      spareCall.record.toPacket = .object members ∧ spareCall.toJson = .object shown ∧
      shown ≠ Json.withoutMember "objects"
        (Json.withMember "arguments" (.array [.string "x"]) members) := by
  have hspare : spareCall.record.unreferenced ≠ [] := by
    intro hnil
    cases hnil
  obtain ⟨members, shown, hmembers, -, hshown, -, horder, -⟩ := members_toJson spareCall
  exact ⟨hspare, members, shown, hmembers, hshown, fun heq => hspare (horder.1 heq)⟩

end ResolvedRecord

end Console
