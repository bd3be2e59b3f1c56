import Console.Message.Basic
import Console.Proofs.Record.RoundTrip
import Console.Proofs.Resolution.Table

/-! # Preparing what was read back

    A record and what its packet reads back as are prepared to the same message or the
    same fault, unless the record fails at a reference whose actor is described: such a
    reference expects another type than its grip has, and its packet holds the grip in its
    place, so that it resolves after reading back.

    - `Alike`: two resolvers that answer alike,
    - `resolveArguments_retag`: the run over the arguments and the run over those read back
      go the same way up to the first such reference,
    - `exists_unresolvable_of_retag`: what was read back fails at undescribed actors only.
-/

namespace Console

/-! ### Arguments as they are read back -/

/-- The argument with the type of the grip that the table has for it. -/
def Argument.retag (table : ObjectTable) (argument : Argument) : Argument :=
  (ReadArgument.reread table argument).argument

theorem Argument.retag_described {table : ObjectTable} {reference : Reference} {grip : Grip}
    (h : table.get? reference.actor = some grip) :
    (Argument.reference reference).retag table = .reference ⟨reference.actor, grip.type⟩ := by
  simp [retag, ReadArgument.reread, h, ReadArgument.ofGrip, ObjectTable.actor_of_get? h]

theorem Argument.retag_undescribed {table : ObjectTable} {reference : Reference}
    (h : table.get? reference.actor = none) :
    (Argument.reference reference).retag table = .reference reference := by
  simp [retag, ReadArgument.reread, h]

/-- Says that a result is the fault of a reference whose actor the table describes. -/
def FailsDescribed {α : Type} (table : ObjectTable) (result : Except Fault α) : Prop :=
  ∃ reference, result = .error (.unresolvable reference) ∧ table.get? reference.actor ≠ none

namespace TableResolver

/-- Says that two resolvers answer alike: they have made the same fronts and look up the
    same grips. -/
structure Alike (s t : TableResolver) : Prop where
  limits : s.limits = t.limits
  made : s.made = t.made
  table : ∀ actor, s.table.get? actor = t.table.get? actor

variable {s t : TableResolver}

/-! ### One reference -/

theorem Alike.resolve (h : Alike s t) (reference : Reference) :
    (resolve s reference).1 = (resolve t reference).1 ∧
      Alike (resolve s reference).2 (resolve t reference).2 := by
  have hdescribe : describe? s.table reference = describe? t.table reference := by
    unfold describe?
    rw [h.table]
  cases hmade : s.made.get? reference.actor with
  | some shared =>
    rw [resolve_made hmade, resolve_made (h.made ▸ hmade)]
    exact ⟨rfl, h⟩
  | none =>
    have hmade' : t.made.get? reference.actor = none := h.made ▸ hmade
    cases hgrip : describe? s.table reference with
    | none =>
      rw [resolve_refused hmade hgrip, resolve_refused hmade' (hdescribe ▸ hgrip)]
      exact ⟨rfl, h⟩
    | some grip =>
      have hfresh : s.fresh grip = t.fresh grip := by
        unfold fresh
        rw [h.made, h.limits]
      rw [resolve_fresh hmade hgrip, resolve_fresh hmade' (hdescribe ▸ hgrip), hfresh]
      exact ⟨rfl, h.limits, by simp only [h.made], h.table⟩

/-- An argument resolves as it did before it was read back, unless it expects another type
    than its grip has. -/
theorem Alike.resolveArgument_retag (h : Alike s t) (argument : Argument) :
    ((resolveArgument s argument).1 = (resolveArgument t (argument.retag s.table)).1 ∧
      Alike (resolveArgument s argument).2 (resolveArgument t (argument.retag s.table)).2) ∨
    FailsDescribed s.table (resolveArgument s argument).1 := by
  cases argument with
  | text | number | bool | literal => exact .inl ⟨rfl, h⟩
  | reference reference =>
    cases hget : s.table.get? reference.actor with
    | none =>
      rw [Argument.retag_undescribed hget]
      obtain ⟨hresult, hafter⟩ := h.resolve reference
      exact .inl ⟨congrArg (Except.map Parameter.front) hresult, hafter⟩
    | some grip =>
      rw [Argument.retag_described hget]
      by_cases htype : grip.type = reference.type
      · obtain ⟨hresult, hafter⟩ := h.resolve reference
        rw [htype]
        exact .inl ⟨congrArg (Except.map Parameter.front) hresult, hafter⟩
      · cases hmade : s.made.get? reference.actor with
        | some shared =>
          -- what has been made is handed out for either type
          have hmade' : t.made.get? reference.actor = some shared := h.made ▸ hmade
          left
          have hretagged := @resolve_made t ⟨reference.actor, grip.type⟩ shared hmade'
          simp only [resolveArgument, Resolver.resolve, resolve_made hmade, hretagged]
          exact ⟨trivial, h⟩
        | none =>
          right
          refine ⟨reference, ?_, by rw [hget]; nofun⟩
          simp only [resolveArgument, Resolver.resolve,
            resolve_refused hmade (describe?_mistyped hget htype), Except.map]

/-- A reference with the type that the table gives it fails only if its actor is not
    described. -/
theorem exists_unresolvable_of_retag {table : ObjectTable}
    (h : ∀ actor, t.table.get? actor = table.get? actor) {argument : Argument} {fault : Fault}
    (hfault : (resolveArgument t (argument.retag table)).1 = .error fault) :
    ∃ reference, fault = .unresolvable reference ∧ table.get? reference.actor = none := by
  cases argument with
  | text | number | bool | literal => cases hfault
  | reference reference =>
    cases hget : table.get? reference.actor with
    | none =>
      rw [Argument.retag_undescribed hget] at hfault
      cases hmade : t.made.get? reference.actor with
      | some shared =>
        simp only [resolveArgument, Resolver.resolve, resolve_made hmade] at hfault
        cases hfault
      | none =>
        have hnone := describe?_eq_none ((h reference.actor).trans hget)
        simp only [resolveArgument, Resolver.resolve, resolve_refused hmade hnone] at hfault
        cases hfault
        exact ⟨reference, rfl, hget⟩
    | some grip =>
      -- the grip's own type is always the expected one
      obtain ⟨shared, hshared⟩ := exists_of_described
        (r := t) ((h reference.actor).trans hget)
      rw [Argument.retag_described hget] at hfault
      simp only [resolveArgument, Resolver.resolve, hshared] at hfault
      cases hfault

/-! ### All arguments -/

/-- The arguments of a record and those read back resolve alike up to the first reference
    that expects another type than its grip has. -/
theorem Alike.resolveArguments_retag {table : ObjectTable} (h : Alike s t) (htable : s.table = table)
    (arguments : List Argument) :
    (resolveArguments s arguments).1 =
        (resolveArguments t (arguments.map (Argument.retag table))).1 ∨
      FailsDescribed table (resolveArguments s arguments).1 := by
  induction arguments generalizing s t with
  | nil => exact .inl rfl
  | cons argument rest ih =>
    subst htable
    rw [List.map_cons, resolveArguments_cons, resolveArguments_cons]
    rcases h.resolveArgument_retag argument with ⟨hresult, hafter⟩ | ⟨reference, hresult, hget⟩
    · rw [← hresult]
      cases (resolveArgument s argument).1 with
      | error fault => exact .inl rfl
      | ok parameter =>
        rcases ih hafter (table_resolveArgument s argument) with hrest | ⟨reference, hrest, hget⟩
        · exact .inl (congrArg (Except.map (parameter :: ·)) hrest)
        · exact .inr ⟨reference, by simp only [hrest, Except.map], hget⟩
    · rw [hresult]
      exact .inr ⟨reference, rfl, hget⟩

/-- Arguments that were read back fail only at actors that are not described. -/
theorem exists_unresolvable_of_map_retag {table : ObjectTable}
    (h : ∀ actor, t.table.get? actor = table.get? actor) {arguments : List Argument} {fault : Fault}
    (hfault : (resolveArguments t (arguments.map (Argument.retag table))).1 = .error fault) :
    ∃ reference, fault = .unresolvable reference ∧ table.get? reference.actor = none := by
  induction arguments generalizing t with
  | nil => cases hfault
  | cons argument rest ih =>
    rw [List.map_cons, resolveArguments_cons] at hfault
    cases hresult : (resolveArgument t (argument.retag table)).1 with
    | error first =>
      rw [hresult] at hfault
      cases hfault
      exact exists_unresolvable_of_retag h hresult
    | ok parameter =>
      rw [hresult] at hfault
      have hafter : ∀ actor, (resolveArgument t (argument.retag table)).2.table.get? actor =
          table.get? actor := by
        intro actor
        rw [table_resolveArgument, h]
      cases hrest : (resolveArguments (resolveArgument t (argument.retag table)).2
          (rest.map (Argument.retag table))).1 with
      | error first =>
        simp only [hrest, Except.map] at hfault
        cases hfault
        exact ih hafter hrest
      | ok parameters =>
        simp only [hrest, Except.map] at hfault
        cases hfault

end TableResolver

namespace Record

/-! ### Preparation -/

/-- The outcome of preparing a record from its own table, with the ids after it. -/
def prepareOwn (limits : Limits) (ids : IdSource) (record : Record) :
    Except Fault Message × IdSource :=
  let (outcome, ids, _) := record.prepare ids (⟨record.objects, limits, .empty⟩ : TableResolver)
  (outcome, ids)

/-- The parameters that a record's own table gives its arguments. -/
def ownParameters (limits : Limits) (record : Record) : Except Fault (List Parameter) :=
  (resolveArguments (⟨record.objects, limits, .empty⟩ : TableResolver) record.arguments).1

theorem prepareOwn_eq (limits : Limits) (ids : IdSource) (record : Record) :
    record.prepareOwn limits ids =
      match record.ownParameters limits with
      | .error fault => (.error fault, ids)
      | .ok parameters => (.ok ((⟨record, parameters⟩ : ResolvedRecord).message ids.next.1), ids.next.2) := by
  unfold prepareOwn ownParameters prepare Record.resolve
  cases resolveArguments (⟨record.objects, limits, .empty⟩ : TableResolver) record.arguments with
  | mk result after =>
    cases result with
    | error => rfl
    | ok => rfl

/-- What is prepared depends on the record beside its arguments and table, and on its
    parameters. -/
theorem prepareOwn_reloaded_of_eq {limits : Limits} {record : Record} (ids : IdSource)
    (h : record.reloaded.ownParameters limits = record.ownParameters limits) :
    record.reloaded.prepareOwn limits ids = record.prepareOwn limits ids := by
  rw [prepareOwn_eq, prepareOwn_eq, h]
  cases record.ownParameters limits with
  | error => rfl
  | ok => rfl

theorem prepareOwn_eq_error_iff {limits : Limits} {ids : IdSource} {record : Record} {fault : Fault} :
    (record.prepareOwn limits ids).1 = .error fault ↔ record.ownParameters limits = .error fault := by
  rw [prepareOwn_eq]
  cases record.ownParameters limits with
  | error => simp
  | ok => simp

/-- A record of whole milliseconds that came from a packet is prepared like what its own
    packet reads back as exactly if it does not fail at a reference that its table
    describes. -/
theorem exists_prepareOwn_reloaded_eq_iff {value : Json} {record : Record}
    (hread : ofPacket value = .ok record)
    (htime : ∀ packet, Packet.ofJson? value = some packet → packet.HasWholeMillis) :
    ∃ reloaded, ofPacket record.toPacket = .ok reloaded ∧
      ∀ limits ids, reloaded.prepareOwn limits ids = record.prepareOwn limits ids ↔
        ∀ reference, (record.prepareOwn limits ids).1 = .error (.unresolvable reference) →
          record.objects.get? reference.actor = none := by
  refine ⟨record.reloaded, ofPacket_toPacket_of_ofPacket hread htime, fun limits ids => ?_⟩
  have htable : ∀ actor, (⟨record.reloaded.objects, limits, .empty⟩ : TableResolver).table.get? actor =
      record.objects.get? actor := record.get?_reloaded
  constructor
  · intro heq reference hfault
    rw [← heq, prepareOwn_eq_error_iff] at hfault
    obtain ⟨found, hfound, hnone⟩ := TableResolver.exists_unresolvable_of_map_retag htable hfault
    cases hfound
    exact hnone
  · intro hundescribed
    have halike : TableResolver.Alike ⟨record.objects, limits, .empty⟩
        ⟨record.reloaded.objects, limits, .empty⟩ := ⟨rfl, rfl, fun actor => (htable actor).symm⟩
    rcases halike.resolveArguments_retag rfl record.arguments with heq | ⟨reference, hfault, hget⟩
    · exact prepareOwn_reloaded_of_eq ids heq.symm
    · exact absurd (hundescribed reference (prepareOwn_eq_error_iff.2 hfault)) hget

/-- A call that refers to an object as if it were a symbol. -/
def mistypedJson : Json :=
  .object [("level", .string "log"),
    ("arguments", .array [.object [("actorID", .string "a"), ("type", .string "symbol")]]),
    ("objects", .array [.object [("type", .string "object"), ("actor", .string "a")]])]

/-- The record of the mistyped call. -/
def mistyped : Record where
  kind := .bare .log
  arguments := [.reference ⟨⟨"a"⟩, .symbol⟩]
  objects := .ofList [.object ⟨⟨"a"⟩, "Object", none, true, false, false, false, none, none, none⟩]

/-- The mistyped call fails before it is written, but not alike after it is read back. -/
theorem mistyped_comes_back_otherwise : ofPacket mistypedJson = .ok mistyped ∧
    (mistyped.prepareOwn {} (.sequential 1)).1 = .error (.unresolvable ⟨⟨"a"⟩, .symbol⟩) ∧
    ∃ reloaded, ofPacket mistyped.toPacket = .ok reloaded ∧
      reloaded.prepareOwn {} (.sequential 1) ≠ mistyped.prepareOwn {} (.sequential 1) := by
  have hread : ofPacket mistypedJson = .ok mistyped := by rfl
  have hfault : (mistyped.prepareOwn {} (.sequential 1)).1 =
      .error (.unresolvable ⟨⟨"a"⟩, .symbol⟩) := by rfl
  have htime : ∀ packet, Packet.ofJson? mistypedJson = some packet → packet.HasWholeMillis := by
    intro packet hpacket ms hms
    cases hpacket
    cases hms
  obtain ⟨reloaded, hreloaded, hiff⟩ := exists_prepareOwn_reloaded_eq_iff hread htime
  refine ⟨hread, hfault, reloaded, hreloaded, fun heq => ?_⟩
  have hnone := (hiff {} (.sequential 1)).1 heq _ hfault
  cases hnone

end Record

end Console
