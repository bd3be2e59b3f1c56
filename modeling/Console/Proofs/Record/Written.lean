import Console.Proofs.Grip
import Console.Proofs.Record.Payload
import Console.Record.Packet

/-! # The fields of a written packet

    `Record.written` names the fields that a record puts into its packet. The packet reads
    back as these fields (`Record.ofJson?_toPacket`), provided that no grip of the record
    holds a null where the reader would take it for an absent field.
-/

namespace Console

open Parts

section
variable {members : List (String × Json)}

/-- A packet is read from any object that holds its fields under their names. -/
theorem Packet.ofJson?_object {p : Packet}
    (hlevel : lookupEntry "level" members = p.level.map .string)
    (harguments : lookupEntry "arguments" members = p.arguments.map .array)
    (hfilename : lookupEntry "filename" members = p.filename.map .string)
    (hline : lookupEntry "lineNumber" members = p.lineNumber.map fun n => .nat n.toNat)
    (hcolumn : lookupEntry "columnNumber" members = p.columnNumber.map fun n => .nat n.toNat)
    (hsource : lookupEntry "sourceId" members = p.sourceId.map .string)
    (htime : (named members).maybe 6 "timeStamp" Json.real? = some p.timeStamp)
    (hwindow : lookupEntry "innerWindowID" members = p.innerWindowId.map fun n => .nat n.toNat)
    (hcounter : lookupEntry "counter" members = p.counter.map Counter.toJson)
    (htimer : lookupEntry "timer" members = p.timer.map Timer.toJson)
    (hstack : lookupEntry "stacktrace" members =
      p.stacktrace.map fun stack => .array (stack.map StackFrame.toJson))
    (hstyles : lookupEntry "styles" members = p.styles.map fun styles => .array (styles.map .string))
    (htype : lookupEntry "resourceType" members = p.resourceType.map .string)
    (hexisting : lookupEntry "isAlreadyExistingResource" members =
      some (.bool p.isAlreadyExistingResource))
    (hobjects : lookupEntry "objects" members =
      p.objects.map fun grips => .array (grips.map Grip.toJson))
    (hnonnull : ∀ grips ∈ p.objects, ∀ grip ∈ grips, grip.Nonnull) :
    Packet.ofJson? (.object members) = some p := by
  have harguments' := @maybe_named _ _ 1 _ Json.items? _ _ harguments (by simp) (by simp)
  have hline' := @maybe_named _ _ 3 _ Json.uint32? _ _ hline (by simp)
    (by simp [Json.nat_ne_null])
  have hcolumn' := @maybe_named _ _ 4 _ Json.uint32? _ _ hcolumn (by simp)
    (by simp [Json.nat_ne_null])
  have hcounter' := @maybe_named _ _ 8 _ Counter.ofJson? _ _ hcounter
    (fun c _ => Counter.ofJson?_toJson c) (fun _ _ => nofun)
  have htimer' := @maybe_named _ _ 9 _ Timer.ofJson? _ _ htimer
    (fun t _ => Timer.ofJson?_toJson t) (fun _ _ => nofun)
  have hstack' := @maybe_named _ _ 10 _ (Json.listOf? StackFrame.ofJson?) _ _ hstack
    (fun _ _ => Json.listOf?_map fun f _ => StackFrame.ofJson?_toJson f) (fun _ _ => nofun)
  have hstyles' := @maybe_named _ _ 11 _ (Json.listOf? Json.string?) _ _ hstyles
    (fun _ _ => Json.listOf?_map fun _ _ => rfl) (fun _ _ => nofun)
  have hobjects' := @maybe_named _ _ 14 _ (Json.listOf? Grip.ofJson?) _ _ hobjects
    (fun grips hgrips => Json.listOf?_map fun g hg => Grip.ofJson?_toJson (hnonnull grips hgrips g hg))
    (fun _ _ => nofun)
  unfold Packet.ofJson?
  -- the parts and the guard come before the fields
  refine Option.bind_eq_some_iff.2 ⟨named members, rfl, ?_⟩
  refine Option.bind_eq_some_iff.2 ⟨(), rfl, ?_⟩
  refine Option.bind_eq_some_iff.2 ⟨_, maybe_string hlevel, ?_⟩
  refine Option.bind_eq_some_iff.2 ⟨_, harguments', ?_⟩
  refine Option.bind_eq_some_iff.2 ⟨_, maybe_string hfilename, ?_⟩
  refine Option.bind_eq_some_iff.2 ⟨_, hline', ?_⟩
  refine Option.bind_eq_some_iff.2 ⟨_, hcolumn', ?_⟩
  refine Option.bind_eq_some_iff.2 ⟨_, maybe_string hsource, ?_⟩
  refine Option.bind_eq_some_iff.2 ⟨_, htime, ?_⟩
  refine Option.bind_eq_some_iff.2 ⟨_, maybe_uint64 hwindow, ?_⟩
  refine Option.bind_eq_some_iff.2 ⟨_, hcounter', ?_⟩
  refine Option.bind_eq_some_iff.2 ⟨_, htimer', ?_⟩
  refine Option.bind_eq_some_iff.2 ⟨_, hstack', ?_⟩
  refine Option.bind_eq_some_iff.2 ⟨_, hstyles', ?_⟩
  refine Option.bind_eq_some_iff.2 ⟨_, maybe_string htype, ?_⟩
  refine Option.bind_eq_some_iff.2 ⟨_, defaulted_bool hexisting, ?_⟩
  refine Option.bind_eq_some_iff.2 ⟨_, hobjects', ?_⟩
  rfl

end

/-- A time stamp is written as a number. -/
theorem Timestamp.exists_toJson (t : Timestamp) : ∃ n, t.toJson = .number n := by
  unfold toJson
  split
  · exact ⟨_, rfl⟩
  · exact ⟨_, rfl⟩

namespace Record

/-! ### Lists that are left out when empty -/

/-- A list, or none if it is empty. -/
def nonempty? {α : Type} (xs : List α) : Option (List α) :=
  if xs.isEmpty then none else some xs

@[simp] theorem nonempty?_getD {α : Type} (xs : List α) : (nonempty? xs).getD [] = xs := by
  cases xs <;> rfl

theorem eq_of_mem_nonempty? {α : Type} {xs ys : List α} (h : ys ∈ nonempty? xs) : ys = xs := by
  cases xs with
  | nil => cases h
  | cons => exact (Option.some.inj h).symm

@[simp] theorem lookupEntry_nonempty_self {α : Type} (name : String) (write : α → Json)
    (xs : List α) :
    lookupEntry name (nonempty name (xs.map write)) =
      (nonempty? xs).map fun xs => .array (xs.map write) := by
  cases xs <;> simp [nonempty, nonempty?, lookupEntry]

@[simp] theorem lookupEntry_nonempty_ne {name other : String} (items : List Json)
    (h : other ≠ name) : lookupEntry name (nonempty other items) = none := by
  cases items <;> simp [nonempty, lookupEntry, h]

/-! ### Fields -/

/-- The fields of the packet that a record writes. -/
def written (record : Record) : Packet where
  level := some record.level.name
  arguments := some (record.arguments.map (argumentJson record.objects))
  filename := some record.location.filename
  lineNumber := some record.location.lineNumber
  columnNumber := some record.location.columnNumber
  sourceId := record.location.sourceId
  timeStamp := record.timestamp.toJson.real?
  innerWindowId := record.innerWindowId
  counter := record.kind.counter?
  timer := record.kind.timer?
  stacktrace := record.kind.stack?
  styles := nonempty? record.styles
  resourceType := some record.resourceType
  isAlreadyExistingResource := record.isAlreadyExistingResource
  objects := nonempty? record.unreferenced

/-- Says that no grip of a record holds a null. -/
def Nonnull (record : Record) : Prop := ∀ grip ∈ record.objects.toList, grip.Nonnull

/-- A record's packet reads back as the fields it was written from. -/
theorem ofJson?_toPacket {record : Record} (h : record.Nonnull) :
    Packet.ofJson? record.toPacket = some record.written := by
  obtain ⟨time, htime⟩ := record.timestamp.exists_toJson
  have hmember : lookupEntry "timeStamp" (record.packetMembers
      (record.arguments.map (argumentJson record.objects))) = some (.number time) := by
    simp [packetMembers, lookupEntry, htime]
  have hread : (named (record.packetMembers
      (record.arguments.map (argumentJson record.objects)))).maybe 6 "timeStamp" Json.real? =
        some record.written.timeStamp := by
    simp [maybe, field?, hmember, written, htime, Json.real?]
  have hobjects : ∀ grips ∈ record.written.objects, ∀ grip ∈ grips, grip.Nonnull := by
    intro grips hgrips grip hgrip
    rw [eq_of_mem_nonempty? hgrips] at hgrip
    exact h grip (List.mem_filter.1 hgrip).1
  refine Packet.ofJson?_object ?_ ?_ ?_ ?_ ?_ ?_ hread ?_ ?_ ?_ ?_ ?_ ?_ ?_ ?_ hobjects
  all_goals simp [packetMembers, lookupEntry, written]

end Record

end Console
