import Console.Proofs.Message.Parameters
import Console.Proofs.Resolution.Types
import Console.Proofs.SingleFlight.Delay
import Console.Proofs.Views

/-! # Live preparation

    A record that is prepared through a fresh session gives the message that its own table
    gives, if the source answers as that table does, however late
    (`SingleFlight.Session.prepare_delayed`). Arguments are looked up when all calls have
    ended, among fronts that are held by actor, so that references to one actor share one
    front.
-/

namespace Console

variable {shared : Shared Front} {limits : Limits}

theorem exists_of_map_eq_ok {α β : Type} {f : α → β} {result : Except Fault α} {y : β}
    (h : result.map f = .ok y) : ∃ x, result = .ok x ∧ f x = y := by
  cases result with
  | error fault => cases h
  | ok x => exact ⟨x, rfl, Except.ok.inj h⟩

theorem eq_error_of_map_eq_error {α β : Type} {f : α → β} {result : Except Fault α} {fault : Fault}
    (h : result.map f = .error fault) : result = .error fault := by
  cases result with
  | error cause => exact congrArg Except.error (Except.error.inj h)
  | ok x => cases h

/-- Says that fronts of one actor in a message are one instance. -/
def Message.SharesFronts (m : Message) : Prop :=
  ∀ x y : Shared Front, .front x ∈ m.parameters → .front y ∈ m.parameters →
    x.value.actor = y.value.actor → x = y

/-! ### Arguments from finished fronts -/

namespace ResolvedFronts

variable {r : ResolvedFronts}

/-- Parameters that come from finished fronts are among them. -/
theorem exists_get?_of_mem {arguments : List Argument} {parameters : List Parameter}
    (h : (resolveArguments r arguments).1 = .ok parameters) (hmem : .front shared ∈ parameters) :
    ∃ actor, r.get? actor = some shared := by
  induction arguments generalizing parameters with
  | nil =>
    cases h
    cases hmem
  | cons argument rest ih =>
    have hafter : (resolveArgument r argument).2 = r := by
      cases argument with
      | reference reference => exact resolve_after r reference
      | _ => rfl
    rw [resolveArguments_cons, hafter] at h
    cases hfirst : (resolveArgument r argument).1 with
    | error fault => simp only [hfirst] at h; cases h
    | ok parameter =>
      cases hrest : (resolveArguments r rest).1 with
      | error fault => simp only [hfirst, hrest, Except.map] at h; cases h
      | ok others =>
        simp only [hfirst, hrest, Except.map] at h
        cases h
        rcases List.mem_cons.1 hmem with rfl | hmem
        · -- only a reference comes to a front
          cases argument with
          | reference reference =>
            cases hresult : (resolve r reference).1 with
            | error fault => simp [resolveArgument, Resolver.resolve, hresult, Except.map] at hfirst
            | ok found =>
              obtain rfl : found = shared := by
                simpa [resolveArgument, Resolver.resolve, hresult, Except.map] using hfirst
              exact ⟨reference.actor, (resolve_eq_ok_iff.1 hresult).1⟩
          | _ => cases hfirst
        · exact ih hrest hmem

/-- A message of arguments from finished fronts shares them. -/
theorem sharesFronts {fronts : List (Shared Front)} {record : Record} {packet : ResolvedRecord}
    (h : (record.resolve (ofList fronts)).1 = .ok packet) (id : String) :
    (packet.message id).SharesFronts := by
  have harguments : (resolveArguments (ofList fronts) record.arguments).1 = .ok packet.arguments := by
    unfold Record.resolve at h
    cases hresult : resolveArguments (ofList fronts) record.arguments with
    | mk result after =>
      rw [hresult] at h
      cases result with
      | error fault => cases h
      | ok parameters => cases h; rfl
  have hheld : ∀ x : Shared Front, .front x ∈ (packet.message id).parameters →
      (ofList fronts).get? x.value.actor = some x := by
    intro x hx
    obtain ⟨actor, hget⟩ :=
      exists_get?_of_mem harguments (ResolvedRecord.mem_arguments_of_front hx)
    rw [actor_of_get?_ofList hget]
    exact hget
  intro x y hx hy hactor
  have hsame := hheld x hx
  rw [hactor, hheld y hy] at hsame
  exact (Option.some.inj hsame).symm

end ResolvedFronts

namespace SingleFlight

/-! ### Late resolution -/

namespace Session

/-- A record is resolved through a late source to what the table makes of it, or is refused
    at a reference that the table does not describe. -/
theorem resolveRecord_delayed {table : ObjectTable} {source : Source} (hdelays : source.Delays table)
    (limits : Limits) (record : Record) :
    let result := (({ limits := limits, source := source } : Session).resolveRecord record).1
    (∃ fronts, Answered limits (TableResolver.describe? table) (distinctActors record.references)
        fronts none ∧ result = (record.resolve (ResolvedFronts.ofList fronts)).1) ∨
    ∃ reference ∈ record.references, TableResolver.describe? table reference = none ∧
      result = .error (.unresolvable reference) := by
  intro result
  have hjoin := joinOf_ne_never record
  have hdistinct := pairwise_distinctActors record.references
  rcases joined_delayed hdelays limits hjoin hdistinct with
    ⟨fronts, hanswered, hcalls⟩ | ⟨reference, hmem, hnone, hfailure⟩
  · refine .inl ⟨fronts, hanswered, ?_⟩
    simp only [result, resolveRecord, resolveReferences, failure?_eq hjoin hcalls,
      filterMap_toOption hcalls]
  · refine .inr ⟨reference, mem_of_mem_distinctActors hmem, hnone, ?_⟩
    simp only [result, resolveRecord, resolveReferences, hfailure]

end Session

/-- If a reference to each actor was answered, all references that have the types of their
    grips are described. -/
theorem Answered.isSome_describe? {table : ObjectTable} {record : Record}
    {fronts : List (Shared Front)}
    (h : Answered limits (TableResolver.describe? table) (Session.distinctActors record.references)
      fronts none)
    (htypes : ∀ reference ∈ record.references, ∀ grip,
      table.get? reference.actor = some grip → grip.type = reference.type)
    {reference : Reference} (hmem : reference ∈ record.references) :
    (TableResolver.describe? table reference).isSome := by
  obtain ⟨found, hfound, hactor⟩ := exists_mem_distinctActors hmem
  have hnone := Option.map_eq_none_iff.1 h.fault_eq.symm
  have hdescribed := List.find?_eq_none.1 hnone found hfound
  obtain ⟨grip, hgrip⟩ : ∃ grip, TableResolver.describe? table found = some grip :=
    Option.ne_none_iff_exists'.1 (by simpa using hdescribed)
  have hget := (TableResolver.describe?_eq_some_iff.1 hgrip).1
  rw [hactor] at hget
  rw [TableResolver.describe?_eq_some_iff.2 ⟨hget, htypes reference hmem grip hget⟩]
  rfl

/-- A record whose references have the types of their grips is prepared through a fresh
    session, whose source answers as the record's own table does but after any delays,
    exactly if it is prepared from that table. The message is the same then, up to the
    identities of fronts, fronts of one actor are one instance, and the same id is drawn;
    otherwise the fault is that a reference of the record is to an actor that the table
    lacks, and no id is drawn. -/
theorem Session.prepare_delayed {source : Source} {record : Record} (limits : Limits)
    (ids : IdSource) (hdelays : source.Delays record.objects) (htypes : record.TypesAgree) :
    let own := record.prepareOwn limits ids
    let live := ({ limits := limits, source := source } : Session).prepare record ids
    (∀ message, own.1 = .ok message → ∃ found, live.1 = .ok found ∧
      found.content = message.content ∧ found.SharesFronts ∧ live.2.1 = own.2) ∧
    ∀ fault, own.1 = .error fault → ∃ reference ∈ record.references,
      record.objects.get? reference.actor = none ∧
      live.1 = .error (.unresolvable reference) ∧ live.2.1 = ids := by
  intro own live
  have hown : own = settle ids (record.resolveOwn limits) := record.prepareOwn_eq_settle limits ids
  have hcontent := @resolveOwn_spec record.objects limits record (fun _ _ => rfl) htypes
  rcases resolveRecord_delayed hdelays limits record with
    ⟨fronts, hanswered, hresult⟩ | ⟨reference, hmem, hnone, hresult⟩
  · -- nothing is refused, from the table or live
    obtain ⟨parameters, hok⟩ := @exists_contentOf_eq_ok limits record.objects record.arguments
      fun reference hmem => hanswered.isSome_describe? htypes hmem
    have herased := Record.erased_resolve
      (ResolvedFronts.resolveArguments_content fun reference hmem =>
        hanswered.answers (fun _ _ h => (TableResolver.describe?_eq_some_iff.1 h).1)
          (exists_mem_distinctActors hmem))
    rw [hok] at hcontent herased
    obtain ⟨packet, hpacket, hsame⟩ := exists_of_map_eq_ok hcontent
    obtain ⟨found, hfound, hsame'⟩ := exists_of_map_eq_ok herased
    have hlive : live.1 = .ok (found.message ids.next.1) ∧ live.2.1 = ids.next.2 := by
      simp only [live, prepare, hresult, hfound, settle, and_self]
    rw [hpacket] at hown
    rw [hown]
    refine ⟨?_, by rintro fault ⟨⟩⟩
    rintro message ⟨⟩
    refine ⟨found.message ids.next.1, hlive.1, ?_, ResolvedFronts.sharesFronts hfound _, hlive.2⟩
    exact ResolvedRecord.content_message_congr (hsame'.trans hsame.symm) _
  · -- the first reference that is refused from the table may be another one
    obtain ⟨first, hfirst⟩ : ∃ first, record.references.find?
        (fun r => (TableResolver.describe? record.objects r).isNone) = some first :=
      Option.isSome_iff_exists.1 (List.find?_isSome.2 ⟨reference, hmem, by rw [hnone]; rfl⟩)
    rw [contentOf_eq_error hfirst] at hcontent
    have hfault := eq_error_of_map_eq_error hcontent
    have hlive : live.1 = .error (.unresolvable reference) ∧ live.2.1 = ids := by
      simp only [live, prepare, hresult, settle, and_self]
    rw [hfault] at hown
    rw [hown]
    constructor
    · intro message hmessage
      cases hmessage
    intro fault _
    refine ⟨reference, hmem, ?_, hlive⟩
    cases hget : record.objects.get? reference.actor with
    | none => rfl
    | some grip =>
      have hsome := TableResolver.describe?_eq_some_iff.2 ⟨hget, htypes reference hmem grip hget⟩
      rw [hnone] at hsome
      cases hsome

/-- A call with a symbol, twice, and one with a symbol that is not described, with answers
    that come late. -/
theorem Session.prepare_delayed_symbolCall :
    let late (table : ObjectTable) : Source :=
      { answer := fun actor n => ⟨n + 2, ((Source.ofTable table).answer actor n).reply⟩ }
    (∃ found, (({ limits := {}, source := late symbolTable } : Session).prepare symbolCall
        (.sequential 1)).1 = .ok found ∧ found.text = "Symbol() Symbol()" ∧ found.SharesFronts) ∧
    ∃ reference ∈ symbolCall.references, (({ limits := {}, source := late .empty } : Session).prepare
        { symbolCall with objects := .empty } (.sequential 1)).1 =
      .error (.unresolvable reference) := by
  intro late
  constructor
  · have htypes : symbolCall.TypesAgree := by
      intro reference hmem grip hget
      rw [mem_references_symbolCall hmem] at hget ⊢
      cases hget
      rfl
    obtain ⟨hok, -⟩ := @Session.prepare_delayed (late symbolTable) symbolCall {} (.sequential 1)
      (fun _ _ => rfl) htypes
    obtain ⟨found, hfound, hcontent, hshares, -⟩ := hok _ rfl
    have htext := congrArg Message.text hcontent
    exact ⟨found, hfound, htext, hshares⟩
  · have htypes : ({ symbolCall with objects := .empty } : Record).TypesAgree :=
      fun _ _ _ hget => nomatch hget
    obtain ⟨-, herror⟩ := @Session.prepare_delayed (late .empty) { symbolCall with objects := .empty }
      {} (.sequential 1) (fun _ _ => rfl) htypes
    obtain ⟨reference, hmem, -, hfault, -⟩ := herror _ rfl
    exact ⟨reference, hmem, hfault⟩

end SingleFlight

end Console
