import Console.Proofs.Record.ObjectTable
import Console.Proofs.Resolution.Content
import Console.Proofs.SingleFlight.Export
import Console.Proofs.SingleFlight.Invariant

/-! # Types of resolved fronts

    Every resolver checks that an actor has the type under which it is asked for, but not at
    the same point, and so an actor that was asked for under two types is answered
    differently:

    - `TableResolver` checks when it makes a front, and hands it out under any type later on
      (`TableResolver.Asked`),
    - `ResolvedFronts` checks whenever it is asked,
    - live calls check what they fetch, and finish with a front that is there already under
      any type (`SingleFlight.Typed`).

    The front is that of the actor in all cases.
-/

namespace Console

variable {limits : Limits} {table : ObjectTable} {history : List Reference}
  {reference : Reference} {grip : Grip}

/-! ### From a table -/

namespace TableResolver

variable {r : TableResolver}

/-- Says that a resolver has made the fronts of those described actors that were asked for
    under the type of their grip. -/
structure Asked (limits : Limits) (table : ObjectTable) (history : List Reference)
    (r : TableResolver) : Prop extends Faithful limits table table.get? r where
  asked : ∀ actor grip, r.table.get? actor = some grip →
    ((r.made.get? actor).isSome ↔ ⟨actor, grip.type⟩ ∈ history)

theorem asked_nil (limits : Limits) (table : ObjectTable) :
    Asked limits table [] ⟨table, limits, .empty⟩ where
  toFaithful := faithful_empty limits table
  asked := fun _ _ _ => by simp

theorem Asked.made_of_type (h : Asked limits table history r)
    (hmade : r.made.get? reference.actor = none) (hgrip : describe? r.table reference = some grip) :
    Asked limits table (history ++ [reference])
      { r with made := r.made.insert reference.actor (r.fresh grip) } := by
  obtain ⟨hget, htype⟩ := describe?_eq_some_iff.1 hgrip
  constructor
  case toFaithful =>
    refine ⟨h.limits, h.table, fun actor shared hshared => ?_⟩
    by_cases hactor : actor = reference.actor
    · subst hactor
      rw [OrderedMap.get?_insert_self] at hshared
      cases hshared
      exact ⟨grip, h.table ▸ hget, rfl⟩
    · rw [OrderedMap.get?_insert_ne _ _ hactor] at hshared
      exact h.made actor shared hshared
  case asked =>
    intro actor found hfound
    by_cases hactor : actor = reference.actor
    · subst hactor
      cases hget.symm.trans hfound
      simp [htype]
    · have hne : (⟨actor, found.type⟩ : Reference) ≠ reference := by
        rintro rfl
        exact hactor rfl
      rw [OrderedMap.get?_insert_ne _ _ hactor, h.asked actor found hfound]
      simp [hne]

/-- What has been made stays as it is if the reference is not to a new actor under its
    type. -/
theorem Asked.kept (h : Asked limits table history r)
    (hold : ∀ grip, r.table.get? reference.actor = some grip → grip.type = reference.type →
      (r.made.get? reference.actor).isSome) : Asked limits table (history ++ [reference]) r where
  toFaithful := h.toFaithful
  asked := by
    intro actor grip hgrip
    constructor
    · intro hmade
      exact List.mem_append_left _ ((h.asked actor grip hgrip).1 hmade)
    · intro hmem
      rcases List.mem_append.1 hmem with hmem | hmem
      · exact (h.asked actor grip hgrip).2 hmem
      · cases List.mem_singleton.1 hmem
        exact hold grip hgrip rfl

theorem Asked.resolve (h : Asked limits table history r) (reference : Reference) :
    Asked limits table (history ++ [reference]) (resolve r reference).2 := by
  cases hmade : r.made.get? reference.actor with
  | some shared =>
    rw [resolve_made hmade]
    exact h.kept fun _ _ _ => by rw [hmade]; rfl
  | none =>
    cases hgrip : describe? r.table reference with
    | some grip =>
      rw [resolve_fresh hmade hgrip]
      exact h.made_of_type hmade hgrip
    | none =>
      rw [resolve_refused hmade hgrip]
      refine h.kept fun grip hget htype => ?_
      rw [describe?_eq_some_iff.2 ⟨hget, htype⟩] at hgrip
      cases hgrip

theorem Asked.after (h : Asked limits table history r) (references : List Reference) :
    Asked limits table (history ++ references) (Resolver.after r references) := by
  induction references generalizing r history with
  | nil => exact (List.append_nil history).symm ▸ h
  | cons reference rest ih =>
    have hrest := ih (h.resolve reference)
    rw [List.append_assoc] at hrest
    exact hrest

/-- A described actor is answered with its front, if it is asked for under the type of its
    grip or has been before. -/
theorem Asked.exists_front (h : Asked limits table history r)
    (hget : table.get? reference.actor = some grip)
    (hasked : grip.type = reference.type ∨ ⟨reference.actor, grip.type⟩ ∈ history) :
    ∃ shared, (TableResolver.resolve r reference).1 = .ok shared ∧
      shared.value = Front.ofGrip limits grip := by
  cases hmade : r.made.get? reference.actor with
  | some shared =>
    obtain ⟨found, hfound, hvalue⟩ := h.made reference.actor shared hmade
    rw [hget] at hfound
    cases hfound
    exact ⟨shared, by rw [resolve_made hmade], by rw [hvalue, h.limits]⟩
  | none =>
    rcases hasked with htype | hmem
    · have hgrip := describe?_eq_some_iff.2 ⟨h.table ▸ hget, htype⟩
      exact ⟨r.fresh grip, by rw [resolve_fresh hmade hgrip], by rw [fresh, h.limits]⟩
    · have hsome := (h.asked reference.actor grip (h.table ▸ hget)).2 hmem
      rw [hmade] at hsome
      cases hsome

theorem Asked.refused (h : Asked limits table history r)
    (hget : ∀ grip, table.get? reference.actor = some grip →
      grip.type ≠ reference.type ∧ ⟨reference.actor, grip.type⟩ ∉ history) :
    (TableResolver.resolve r reference).1 = .error (.unresolvable reference) := by
  have hmade : r.made.get? reference.actor = none := by
    cases hmade : r.made.get? reference.actor with
    | none => rfl
    | some shared =>
      obtain ⟨grip, hgrip, -⟩ := h.made reference.actor shared hmade
      have hmem := (h.asked _ _ (h.table ▸ hgrip)).1 (by rw [hmade]; rfl)
      exact absurd hmem (hget grip hgrip).2
  have hgrip : describe? r.table reference = none := by
    cases hgrip : describe? r.table reference with
    | none => rfl
    | some grip =>
      obtain ⟨hfound, htype⟩ := describe?_eq_some_iff.1 hgrip
      exact absurd htype (hget grip (h.table ▸ hfound)).1
  rw [resolve_refused hmade hgrip]

/-- A described actor is refused exactly if it has not been asked for under the type of its
    grip. -/
theorem Asked.refused_iff (h : Asked limits table history r)
    (hget : table.get? reference.actor = some grip) :
    (TableResolver.resolve r reference).1 = .error (.unresolvable reference) ↔
      grip.type ≠ reference.type ∧ ⟨reference.actor, grip.type⟩ ∉ history := by
  constructor
  · intro herror
    rw [← not_or]
    intro hasked
    obtain ⟨shared, hshared, -⟩ := h.exists_front hget hasked
    cases hshared.symm.trans herror
  · intro hnever
    apply h.refused
    intro found hfound
    cases hget.symm.trans hfound
    exact hnever

theorem Asked.refused_undescribed (h : Asked limits table history r)
    (hget : table.get? reference.actor = none) :
    (TableResolver.resolve r reference).1 = .error (.unresolvable reference) := by
  apply h.refused
  intro found hfound
  cases hget.symm.trans hfound

/-- A front is that of the actor's grip, which was asked for under its type. -/
theorem Asked.types_of_ok {shared : Shared Front} (h : Asked limits table history r)
    (hshared : (TableResolver.resolve r reference).1 = .ok shared) :
    shared.value.actor = reference.actor ∧
      (shared.value.type = reference.type ∨ ⟨reference.actor, shared.value.type⟩ ∈ history) := by
  cases hget : table.get? reference.actor with
  | none => cases (h.refused_undescribed hget).symm.trans hshared
  | some grip =>
    have hasked : grip.type = reference.type ∨ ⟨reference.actor, grip.type⟩ ∈ history := by
      by_contra hnever
      rw [not_or] at hnever
      cases ((h.refused_iff hget).2 hnever).symm.trans hshared
    obtain ⟨found, hfound, hvalue⟩ := h.exists_front hget hasked
    cases hfound.symm.trans hshared
    rw [hvalue, Front.actor_ofGrip, Front.type_ofGrip, ObjectTable.actor_of_get? hget]
    exact ⟨rfl, hasked⟩

end TableResolver

/-! ### From finished fronts -/

namespace ResolvedFronts

variable {r : ResolvedFronts} {shared : Shared Front}

theorem resolve_eq_ok_iff : (resolve r reference).1 = .ok shared ↔
    r.get? reference.actor = some shared ∧ shared.value.type = reference.type := by
  have hfilter : (r.get? reference.actor).filter (fun found => found.value.type == reference.type) =
      some shared ↔ r.get? reference.actor = some shared ∧ shared.value.type = reference.type := by
    rw [Option.filter_eq_some_iff, beq_iff_eq]
  rw [← hfilter, resolve]
  split
  · next found hfound => simp only [hfound, Except.ok.injEq, Option.some.injEq]
  · next hnone => simp only [hnone, reduceCtorEq]

theorem resolve_refused (h : r.get? reference.actor = some shared)
    (htype : shared.value.type ≠ reference.type) :
    (resolve r reference).1 = .error (.unresolvable reference) := by
  rw [resolve, h, Option.filter_some, if_neg (by simpa using htype)]

/-- Resolving changes nothing. -/
theorem resolve_after (r : ResolvedFronts) (reference : Reference) : (resolve r reference).2 = r := by
  unfold resolve
  split <;> rfl

@[simp] theorem after_eq (r : ResolvedFronts) (history : List Reference) :
    Resolver.after r history = r := by
  induction history with
  | nil => rfl
  | cons reference rest ih =>
    exact (congrArg (fun r => Resolver.after r rest) (resolve_after r reference)).trans ih

end ResolvedFronts

/-! ### Live -/

namespace SingleFlight

variable {s t : State}

/-- Says that a reply with a grip describes the actor that is asked for. -/
def Truthful (s : State) : Move → Prop
  | .reply id (.grip grip) =>
    ∀ call, s.calls[id]? = some call → grip.actor = call.reference.actor
  | _ => True

/-- The states that moves lead to from the start, if the source only describes the actors
    that it is asked for. -/
inductive TruthfullyReachable (limits : Limits) : State → Prop where
  | start : TruthfullyReachable limits {}
  | step {s t : State} {move : Move} :
      TruthfullyReachable limits s → Truthful s move → s.step? limits move = some t →
      TruthfullyReachable limits t

theorem TruthfullyReachable.reachable (h : TruthfullyReachable limits s) : Reachable limits s := by
  induction h with
  | start => exact .start
  | step _ _ hstep ih => exact .step ih hstep

/-! #### What turns keep -/

/-- A call is still there after another one has changed its stage. -/
theorem mem_calls_setStage_of_ne {id : Nat} {stage : Stage} {call before : Call}
    (hbefore : s.calls[id]? = some before) (hmem : call ∈ s.calls) (hne : call ≠ before) :
    call ∈ (s.setStage id stage).calls := by
  obtain ⟨i, hi⟩ := List.getElem?_of_mem hmem
  have hid : id ≠ i := by
    rintro rfl
    rw [hi] at hbefore
    exact hne (Option.some.inj hbefore)
  refine List.mem_of_getElem? (i := i) ?_
  exact (List.getElem?_modify_ne _ s.calls hid).trans hi

/-- A call that has finished stays so. -/
theorem finished_turn {ended : History} (hturn : Turn limits s ended t)
    {outcome : Except Fault (Shared Front)}
    (h : (⟨reference, .finished outcome⟩ : Call) ∈ s.calls) :
    (⟨reference, .finished outcome⟩ : Call) ∈ t.calls := by
  cases hturn with
  | enter => exact List.mem_append_left _ h
  | line => exact h
  | share hcall | leave hcall | succeed _ hcall | release hcall | hold _ hcall =>
    -- the call that changes its stage has not finished
    have hne : ∀ {other : Reference} {stage : Stage}, stage = .waiting ∨ stage = .fetching →
        (⟨reference, .finished outcome⟩ : Call) ≠ ⟨other, stage⟩ := by
      rintro other stage (rfl | rfl) heq <;> cases heq
    exact mem_calls_setStage_of_ne hcall h (hne (by simp))

theorem finished_turns {ended : History} (hturns : Turns limits s ended t)
    {outcome : Except Fault (Shared Front)}
    (h : (⟨reference, .finished outcome⟩ : Call) ∈ s.calls) :
    (⟨reference, .finished outcome⟩ : Call) ∈ t.calls := by
  induction hturns with
  | refl => exact h
  | step _ hturn ih => exact finished_turn hturn ih

/-- Only the success of a fetch changes a front. -/
theorem fronts_turn {ended : History} (hturn : Turn limits s ended t)
    (h : ∀ actor, (actor, .succeeded) ∉ ended) (actor : ActorId) :
    (t.cell actor).front = (s.cell actor).front := by
  cases hturn with
  | enter | share | leave => rfl
  | line | hold | release => exact keeps_setCell Cell.front (by rfl) actor
  | succeed => exact absurd (List.mem_singleton.2 rfl) (h _)

theorem fronts_turns {ended : History} (hturns : Turns limits s ended t)
    (h : ∀ actor, (actor, .succeeded) ∉ ended) (actor : ActorId) :
    (t.cell actor).front = (s.cell actor).front := by
  induction hturns with
  | refl => rfl
  | step _ hturn ih =>
    have hfirst := ih fun a hmem => h a (List.mem_append_left _ hmem)
    exact (fronts_turn hturn (fun a hmem => h a (List.mem_append_right _ hmem)) actor).trans hfirst

/-! #### Fronts under their own types -/

/-- Says that each front in a cell is that of the cell's actor, and that a call that asked
    for it under its type has finished with it. -/
def Typed (s : State) : Prop :=
  ∀ actor shared, (s.cell actor).front = some shared → shared.value.actor = actor ∧
    (⟨⟨actor, shared.value.type⟩, .finished (.ok shared)⟩ : Call) ∈ s.calls

theorem typed_start : Typed {} := fun _ _ h => nomatch h

theorem Typed.turns {ended : History} (h : Typed s) (hturns : Turns limits s ended t)
    (hended : ∀ actor, (actor, .succeeded) ∉ ended) : Typed t := by
  intro actor shared hfront
  rw [fronts_turns hturns hended] at hfront
  obtain ⟨hactor, hmem⟩ := h actor shared hfront
  exact ⟨hactor, finished_turns hturns hmem⟩

theorem Typed.reply {id : Nat} {reply : Reply} (h : Typed s)
    (htruthful : Truthful s (.reply id reply)) (hreply : s.reply? limits id reply = some t) :
    Typed t := by
  have hturns := turns_of_reply? hreply
  unfold State.reply? at hreply
  split at hreply
  · next reference hcall =>
    cases hjudge : reply.judge reference with
    | error fault =>
      refine h.turns hturns ?_
      simp [State.ending?, hcall, hjudge]
    | ok grip =>
      have hgrip : reply = .grip grip ∧ grip.type = reference.type := by
        unfold Reply.judge at hjudge
        split at hjudge
        · next described =>
          split at hjudge
          · next htype => cases hjudge; exact ⟨rfl, htype⟩
          · cases hjudge
        · cases hjudge
        · cases hjudge
      obtain ⟨rfl, htype⟩ := hgrip
      have hactor : grip.actor = reference.actor := htruthful _ hcall
      simp only [hjudge, Option.some.injEq] at hreply
      intro actor shared hfront
      by_cases ha : actor = reference.actor
      · subst ha hreply
        -- the cell holds the front that the call just finished with
        have hshared : shared = ⟨s.made, Front.ofGrip limits grip⟩ := by
          have hcell := cell_setCell_self s reference.actor
            { s.cell reference.actor with
              holder := none, front := some ⟨s.made, Front.ofGrip limits grip⟩ }
          exact (Option.some.inj ((congrArg Cell.front hcell).symm.trans hfront)).symm
        subst hshared
        refine ⟨by rw [Front.actor_ofGrip, hactor], ?_⟩
        rw [Front.type_ofGrip, htype]
        refine List.mem_of_getElem? (i := id) ?_
        have hcalls : (s.calls.modify id fun call =>
            { call with stage := .finished (.ok ⟨s.made, Front.ofGrip limits grip⟩) })[id]? =
              some ⟨reference, .finished (.ok ⟨s.made, Front.ofGrip limits grip⟩)⟩ := by
          rw [List.getElem?_modify_eq, hcall]
          rfl
        exact hcalls
      · have hother : (s.cell actor).front = some shared := by
          subst hreply
          exact (congrArg Cell.front (cell_setCell_ne s _ ha)).symm.trans hfront
        obtain ⟨hown, hmem⟩ := h actor shared hother
        exact ⟨hown, finished_turns hturns hmem⟩
  · cases hreply

theorem Typed.step {move : Move} (h : Typed s) (htruthful : Truthful s move)
    (hstep : s.step? limits move = some t) : Typed t := by
  cases move with
  | reply id reply => exact h.reply htruthful hstep
  | call | resume => exact h.turns (turns_of_step? hstep) (by simp [State.ending?])
  | drop id =>
    refine h.turns (turns_of_step? hstep) fun actor => ?_
    simp only [State.ending?]
    split <;> simp

theorem typed_of_truthfullyReachable (h : TruthfullyReachable limits s) : Typed s := by
  induction h with
  | start => exact typed_start
  | step _ htruthful hstep ih => exact ih.step htruthful hstep

/-! #### Answers to calls -/

variable {shared : Shared Front} {id : Nat}

/-- A call that fetches a grip of another type cannot be resolved. -/
theorem outcome?_reply_mistyped (hcall : s.calls[id]? = some ⟨reference, .fetching⟩)
    (htype : grip.type ≠ reference.type) : ∃ t, s.step? limits (.reply id (.grip grip)) = some t ∧
      t.outcome? id = some (.error (.unresolvable reference)) := by
  have hjudge : Reply.judge reference (.grip grip) = .error (.unresolvable reference) := by
    rw [Reply.judge, if_neg htype]
  obtain ⟨t, hstep, heffect⟩ := exists_reply_error limits hcall hjudge
  exact ⟨t, hstep, heffect.outcome?_self⟩

/-- A new call finishes with a front that is there. -/
theorem outcome?_call_cached (hfront : (s.cell reference.actor).front = some shared) :
    (s.call reference).outcome? s.calls.length = some (.ok shared) := by
  cases hcell : s.cell reference.actor with
  | mk front holder queue =>
    rw [hcell] at hfront
    cases hfront
    exact (effect_call_found hcell).outcome?_self

/-- A call that waited finishes with a front that is there. -/
theorem outcome?_resume_cached (hcall : s.calls[id]? = some ⟨reference, .waiting⟩)
    (hfront : (s.cell reference.actor).front = some shared) :
    ∃ t, s.step? limits (.resume id) = some t ∧ t.outcome? id = some (.ok shared) := by
  cases hcell : s.cell reference.actor with
  | mk front holder queue =>
    rw [hcell] at hfront
    cases hfront
    obtain ⟨t, hstep, heffect⟩ := exists_resume_served limits hcall hcell
    exact ⟨t, hstep, heffect.outcome?_self⟩

end SingleFlight

/-! ### All resolvers -/

/-- What resolves to a front resolves to that of the actor. After any earlier references, a
    table refuses a described actor if and only if neither the reference nor an earlier one
    to it has the type of its grip; finished fronts are refused under any type but their
    own; and live, with a source that describes the actors it is asked for, a call finishes
    with a front that it or another call has asked for under its type: a call that fetches
    a grip of another type is refused, one that finds a front is not. -/
theorem resolved_front_types (table : ObjectTable) (fronts : List (Shared Front)) (limits : Limits)
    (history : List Reference) (reference : Reference) {s : SingleFlight.State}
    (hs : SingleFlight.TruthfullyReachable limits s) :
    let fromTable :=
      ((Resolver.after (⟨table, limits, .empty⟩ : TableResolver) history).resolve reference).1
    let fromFronts := ((Resolver.after (ResolvedFronts.ofList fronts) history).resolve reference).1
    ((∀ shared, fromTable = .ok shared → shared.value.actor = reference.actor ∧
        (shared.value.type = reference.type ∨ ⟨reference.actor, shared.value.type⟩ ∈ history)) ∧
      (∀ grip, table.get? reference.actor = some grip →
        (fromTable = .error (.unresolvable reference) ↔
          grip.type ≠ reference.type ∧ ⟨reference.actor, grip.type⟩ ∉ history)) ∧
      (table.get? reference.actor = none → fromTable = .error (.unresolvable reference))) ∧
    ((∀ shared, fromFronts = .ok shared →
        shared.value.actor = reference.actor ∧ shared.value.type = reference.type) ∧
      (∀ shared, (ResolvedFronts.ofList fronts).get? reference.actor = some shared →
        shared.value.type ≠ reference.type → fromFronts = .error (.unresolvable reference))) ∧
    (∀ call ∈ s.calls, ∀ shared, call.stage = .finished (.ok shared) →
      shared.value.actor = call.reference.actor ∧
        (⟨⟨call.reference.actor, shared.value.type⟩, .finished (.ok shared)⟩ :
          SingleFlight.Call) ∈ s.calls) ∧
    (∀ id grip, s.calls[id]? = some ⟨reference, .fetching⟩ → grip.type ≠ reference.type →
      ∃ t, s.step? limits (.reply id (.grip grip)) = some t ∧
        t.outcome? id = some (.error (.unresolvable reference))) ∧
    (∀ shared, (s.cell reference.actor).front = some shared →
      (s.call reference).outcome? s.calls.length = some (.ok shared) ∧
        ∀ id, s.calls[id]? = some ⟨reference, .waiting⟩ →
          ∃ t, s.step? limits (.resume id) = some t ∧ t.outcome? id = some (.ok shared)) := by
  intro fromTable fromFronts
  refine ⟨?_, ?_, ?_, ?_, ?_⟩
  · have hasked := (TableResolver.asked_nil limits table).after history
    rw [List.nil_append] at hasked
    refine ⟨?_, ?_, hasked.refused_undescribed⟩
    · intro shared hshared
      exact hasked.types_of_ok hshared
    · intro grip hget
      exact hasked.refused_iff hget
  · simp only [fromFronts, ResolvedFronts.after_eq]
    refine ⟨fun shared hshared => ?_, fun shared => ResolvedFronts.resolve_refused⟩
    obtain ⟨hget, htype⟩ := ResolvedFronts.resolve_eq_ok_iff.1 hshared
    exact ⟨ResolvedFronts.actor_of_get?_ofList hget, htype⟩
  · obtain ⟨ended, hrun⟩ := SingleFlight.reachable_iff_run.1 hs.reachable
    have hflight : SingleFlight.Flight s ended := by
      simpa using SingleFlight.Flight.start.run hrun
    intro call hmem shared hfinished
    -- the call shares the front of its cell
    have hfront := hflight.shared call hmem shared hfinished
    exact SingleFlight.typed_of_truthfullyReachable hs call.reference.actor shared hfront
  · intro id grip hcall htype
    exact SingleFlight.outcome?_reply_mistyped hcall htype
  · intro shared hfront
    refine ⟨SingleFlight.outcome?_call_cached hfront, fun id hcall => ?_⟩
    exact SingleFlight.outcome?_resume_cached hcall hfront

/-- A symbol that has been made, from a table or live, is handed out for a reference that
    expects an object. -/
theorem symbol_resolved_as_object :
    let fresh : TableResolver := ⟨.ofList [.symbol ⟨"s"⟩ none], {}, .empty⟩
    let result := ((Resolver.after fresh [⟨⟨"s"⟩, .symbol⟩]).resolve ⟨⟨"s"⟩, .object⟩).1
    result ≠ .error (.unresolvable ⟨⟨"s"⟩, .object⟩) ∧
    ∃ s shared, SingleFlight.TruthfullyReachable {} s ∧
      (s.call ⟨⟨"s"⟩, .object⟩).outcome? 1 = some (.ok shared) ∧ shared.value.type = .symbol := by
  intro fresh result
  -- one call for the symbol, answered with its grip
  have hcall := @SingleFlight.TruthfullyReachable.step {} _ _ (.call ⟨⟨"s"⟩, .symbol⟩) .start
    trivial rfl
  have htruthful : SingleFlight.Truthful (SingleFlight.State.call {} ⟨⟨"s"⟩, .symbol⟩)
      (.reply 0 (.grip (.symbol ⟨"s"⟩ none))) := by
    intro call hmem
    cases hmem
    rfl
  have hreply := SingleFlight.TruthfullyReachable.step hcall htruthful rfl
  obtain ⟨⟨-, hiff, -⟩, -, -, -, hcached⟩ := resolved_front_types (.ofList [.symbol ⟨"s"⟩ none]) [] {}
    [⟨⟨"s"⟩, .symbol⟩] ⟨⟨"s"⟩, .object⟩ hreply
  refine ⟨fun herror => ?_, _, _, hreply, (hcached _ rfl).1, rfl⟩
  exact ((hiff (.symbol ⟨"s"⟩ none) rfl).1 herror).2 (List.mem_singleton.2 rfl)

end Console
