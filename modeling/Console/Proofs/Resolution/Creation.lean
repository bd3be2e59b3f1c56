import Mathlib.Data.List.Forall2
import Console.Proofs.Message.Parameters
import Console.Proofs.Record.ObjectTable
import Console.Proofs.Resolution.Content

/-! # What preparing a record creates

    A resolver over a record's own table asks the table only for the first reference to each
    actor, and makes one front there. So a record fails at the first reference that is the
    first to its actor and that the table does not describe as expected (`Refuses`,
    `StopsAt`), and the fronts made until then are those of the actors before it:

    - `Created`: a resolver that has made one front per actor, in the order of the first
      references to them,
    - `Created.resolve`: one more reference is refused and changes nothing, or is answered
      with the front of its actor,
    - `Created.resolveArguments`: all arguments, from left to right,
    - `Record.prepare_outcome`: the message, the ids and the fronts that preparing leaves
      behind.
-/

namespace Console

open TableResolver (Faithful)

variable {limits : Limits} {table : ObjectTable} {done : List Reference} {reference : Reference}
  {r : TableResolver}

/-! ### References that are refused -/

/-- Says that a reference is the first to its actor, and that the table does not describe the
    actor as what the reference expects. -/
def Refuses (table : ObjectTable) (earlier : List Reference) (reference : Reference) : Prop :=
  (∀ other ∈ earlier, other.actor ≠ reference.actor) ∧
    ∀ grip, table.get? reference.actor = some grip → grip.type ≠ reference.type

/-- Says that none of some references, each after those before it, is refused. -/
def AllAccepted (table : ObjectTable) (references : List Reference) : Prop :=
  ∀ before reference after, references = before ++ reference :: after →
    ¬ Refuses table before reference

/-- Says that a reference among others is the first that is refused. -/
structure StopsAt (table : ObjectTable) (references before : List Reference)
    (reference : Reference) : Prop where
  split : ∃ after, references = before ++ reference :: after
  accepted : AllAccepted table before
  refused : Refuses table before reference

theorem allAccepted_nil (table : ObjectTable) : AllAccepted table [] := by
  intro before reference after h
  exact absurd h.symm (List.append_ne_nil_of_right_ne_nil _ (List.cons_ne_nil _ _))

theorem AllAccepted.concat (h : AllAccepted table done) (hlast : ¬ Refuses table done reference) :
    AllAccepted table (done ++ [reference]) := by
  intro before other after hsplit
  rcases List.eq_nil_or_concat after with rfl | ⟨middle, last, rfl⟩
  · obtain ⟨rfl, hother⟩ := List.append_inj' hsplit rfl
    cases hother
    exact hlast
  · rw [List.concat_eq_append, ← List.cons_append, ← List.append_assoc] at hsplit
    exact h before other middle (List.append_inj' hsplit rfl).1

theorem describe?_eq_none_iff : TableResolver.describe? table reference = none ↔
    ∀ grip, table.get? reference.actor = some grip → grip.type ≠ reference.type := by
  rw [Option.eq_none_iff_forall_ne_some]
  simp only [ne_eq, TableResolver.describe?_eq_some_iff, not_and]

/-! ### One reference -/

/-- Says that a resolver has made a front for each actor of the references done and no other,
    in the order of their first references, by which the fronts are numbered. -/
structure Created (limits : Limits) (table : ObjectTable) (done : List Reference)
    (r : TableResolver) : Prop extends Faithful limits table table.get? r where
  keys : r.made.keys = (done.map Reference.actor).eraseDups
  serials : r.made.entries.map (fun entry => entry.2.serial) = List.range r.made.size

namespace Created

theorem nil (limits : Limits) (table : ObjectTable) :
    Created limits table [] ⟨table, limits, .empty⟩ where
  toFaithful := TableResolver.faithful_empty limits table
  keys := rfl
  serials := rfl

/-- An actor has a front exactly if one of the references done is to it. -/
theorem get?_eq_none_iff (h : Created limits table done r) (actor : ActorId) :
    r.made.get? actor = none ↔ ∀ other ∈ done, other.actor ≠ actor := by
  rw [OrderedMap.get?_eq_none_iff, h.keys, List.mem_eraseDups]
  simp

/-- The front of a described actor that has none yet is made. -/
theorem fresh (h : Created limits table done r) {grip : Grip}
    (hmade : r.made.get? reference.actor = none)
    (hgrip : table.get? reference.actor = some grip) :
    Created limits table (done ++ [reference])
      { r with made := r.made.insert reference.actor (r.fresh grip) } := by
  have hentries := OrderedMap.entries_insert_of_get? hmade (r.fresh grip)
  constructor
  case toFaithful =>
    refine ⟨h.limits, h.table, fun actor shared hshared => ?_⟩
    by_cases hactor : actor = reference.actor
    · subst hactor
      rw [OrderedMap.get?_insert_self] at hshared
      cases hshared
      exact ⟨grip, hgrip, rfl⟩
    · rw [OrderedMap.get?_insert_ne _ _ hactor] at hshared
      exact h.made actor shared hshared
  case keys =>
    rw [List.map_append, List.map_singleton]
    exact OrderedMap.keys_insert_of_eraseDups h.keys _ _
  case serials =>
    show (r.made.insert _ _).entries.map _ = List.range (r.made.insert _ _).entries.length
    rw [hentries, List.map_append, h.serials, List.length_append, List.length_singleton,
      List.range_succ]
    rfl

/-- A further reference to an actor whose front is there changes nothing. -/
theorem again (h : Created limits table done r) {shared : Shared Front}
    (hmade : r.made.get? reference.actor = some shared) :
    Created limits table (done ++ [reference]) r where
  toFaithful := h.toFaithful
  serials := h.serials
  keys := by
    have hmem : reference.actor ∈ done.map Reference.actor := by
      by_contra hnone
      have hfresh : ∀ other ∈ done, other.actor ≠ reference.actor := by
        intro other hother hactor
        exact hnone (hactor ▸ List.mem_map_of_mem hother)
      rw [(h.get?_eq_none_iff reference.actor).2 hfresh] at hmade
      cases hmade
    rw [List.map_append, List.map_singleton, eraseDups_concat, if_pos hmem, h.keys]

end Created

/-- Says that a resolver has kept all fronts of another one. -/
def Keeps (r after : TableResolver) : Prop :=
  ∀ actor shared, r.made.get? actor = some shared → after.made.get? actor = some shared

theorem Keeps.trans {s t : TableResolver} (h : Keeps r s) (h' : Keeps s t) : Keeps r t :=
  fun actor shared hmade => h' actor shared (h actor shared hmade)

/-- A reference is refused and changes nothing, or is answered with the front that its actor
    has from then on. -/
theorem Created.resolve (h : Created limits table done r) (reference : Reference) :
    (Refuses table done reference ∧
      r.resolve reference = (.error (.unresolvable reference), r)) ∨
    (¬ Refuses table done reference ∧ ∃ shared after, r.resolve reference = (.ok shared, after) ∧
      Created limits table (done ++ [reference]) after ∧ Keeps r after ∧
      after.made.get? reference.actor = some shared) := by
  cases hmade : r.made.get? reference.actor with
  | some shared =>
    right
    refine ⟨fun hrefused => ?_, shared, r, TableResolver.resolve_made hmade, h.again hmade,
      fun _ _ hkept => hkept, hmade⟩
    have hnone := (h.get?_eq_none_iff reference.actor).2 hrefused.1
    rw [hmade] at hnone
    cases hnone
  | none =>
    have hfirst := (h.get?_eq_none_iff reference.actor).1 hmade
    cases hgrip : TableResolver.describe? table reference with
    | none =>
      left
      refine ⟨⟨hfirst, describe?_eq_none_iff.1 hgrip⟩, ?_⟩
      exact TableResolver.resolve_refused hmade (h.table ▸ hgrip)
    | some grip =>
      right
      obtain ⟨hget, htype⟩ := TableResolver.describe?_eq_some_iff.1 hgrip
      refine ⟨fun hrefused => hrefused.2 grip hget htype, r.fresh grip, _,
        TableResolver.resolve_fresh hmade (h.table ▸ hgrip), h.fresh hmade hget, ?_,
        OrderedMap.get?_insert_self _ _ _⟩
      intro actor shared hkept
      have hne : actor ≠ reference.actor := by
        rintro rfl
        rw [hmade] at hkept
        cases hkept
      exact (OrderedMap.get?_insert_ne _ _ hne).trans hkept

/-! ### All arguments -/

/-- Says what an argument has come to: a reference to the front that the resolver holds for
    its actor, anything else to itself. -/
def StandsFor (r : TableResolver) : Argument → Parameter → Prop
  | .reference reference, parameter =>
    ∃ shared, parameter = .front shared ∧ r.made.get? reference.actor = some shared
  | .text value, parameter => parameter = .text value
  | .number value, parameter => parameter = .number value
  | .bool value, parameter => parameter = .bool value
  | .literal value, parameter => parameter = .literal value

theorem StandsFor.mono {after : TableResolver} (h : Keeps r after) {argument : Argument}
    {parameter : Parameter} (hstands : StandsFor r argument parameter) :
    StandsFor after argument parameter := by
  cases argument with
  | reference reference =>
    obtain ⟨shared, rfl, hmade⟩ := hstands
    exact ⟨shared, rfl, h _ _ hmade⟩
  | _ => exact hstands

/-- The references among arguments are that of the first, if it is one, and the others. -/
theorem references_cons (argument : Argument) (rest : List Argument) :
    (argument :: rest).filterMap Argument.reference? =
      argument.reference?.toList ++ rest.filterMap Argument.reference? := by
  rw [List.filterMap_eq_flatMap_toList, List.flatMap_cons, ← List.filterMap_eq_flatMap_toList]

/-- An argument is a reference that is refused, or comes to its parameter; only a reference
    to a new actor makes a front. -/
theorem Created.resolveArgument (h : Created limits table done r) (hdone : AllAccepted table done)
    (argument : Argument) :
    (∃ reference, argument.reference? = some reference ∧ Refuses table done reference ∧
      Console.resolveArgument r argument = (.error (.unresolvable reference), r)) ∨
    (∃ parameter after, Console.resolveArgument r argument = (.ok parameter, after) ∧
      AllAccepted table (done ++ argument.reference?.toList) ∧
      Created limits table (done ++ argument.reference?.toList) after ∧ Keeps r after ∧
      StandsFor after argument parameter) := by
  cases argument with
  | reference reference =>
    rcases h.resolve reference with ⟨hrefused, hresolve⟩ |
      ⟨haccepted, shared, after, hresolve, hafter, hkeeps, hmade⟩
    · left
      refine ⟨reference, rfl, hrefused, ?_⟩
      simp only [Console.resolveArgument, Resolver.resolve, hresolve, Except.map]
    · right
      refine ⟨.front shared, after, ?_, hdone.concat haccepted, hafter, hkeeps, shared, rfl, hmade⟩
      simp only [Console.resolveArgument, Resolver.resolve, hresolve, Except.map]
  | _ =>
    right
    refine ⟨_, r, rfl, ?_, ?_, fun _ _ hkept => hkept, rfl⟩
    · simpa [Argument.reference?] using hdone
    · simpa [Argument.reference?] using h

/-- Arguments resolve up to the first reference that is refused, with the fronts of the actors
    before it; or all of them do, with the fronts of all actors. -/
theorem Created.resolveArguments (h : Created limits table done r) (hdone : AllAccepted table done)
    (arguments : List Argument) :
    (∃ before reference after,
      StopsAt table (done ++ arguments.filterMap Argument.reference?) before reference ∧
      Console.resolveArguments r arguments = (.error (.unresolvable reference), after) ∧
      Created limits table before after) ∨
    (AllAccepted table (done ++ arguments.filterMap Argument.reference?) ∧ ∃ parameters after,
      Console.resolveArguments r arguments = (.ok parameters, after) ∧
      Created limits table (done ++ arguments.filterMap Argument.reference?) after ∧
      Keeps r after ∧ List.Forall₂ (StandsFor after) arguments parameters) := by
  induction arguments generalizing r done with
  | nil =>
    right
    rw [List.filterMap_nil, List.append_nil]
    exact ⟨hdone, [], r, rfl, h, fun _ _ hkept => hkept, .nil⟩
  | cons argument rest ih =>
    rw [references_cons, ← List.append_assoc]
    rcases h.resolveArgument hdone argument with ⟨reference, hreference, hrefused, hfirst⟩ |
      ⟨parameter, next, hfirst, hall, hnext, hkeeps, hstands⟩
    · left
      have hsplit : done ++ argument.reference?.toList ++ rest.filterMap Argument.reference? =
          done ++ reference :: rest.filterMap Argument.reference? := by
        rw [hreference, List.append_assoc]
        rfl
      refine ⟨done, reference, r, ⟨⟨_, hsplit⟩, hdone, hrefused⟩, ?_, h⟩
      simp only [Console.resolveArguments, hfirst]
    · rcases ih hnext hall with ⟨before, reference, after, hstops, hrest, hafter⟩ |
        ⟨haccepted, parameters, after, hrest, hafter, hkept, hforall⟩
      · left
        refine ⟨before, reference, after, hstops, ?_, hafter⟩
        simp only [Console.resolveArguments, hfirst, hrest, Except.map]
      · right
        refine ⟨haccepted, parameter :: parameters, after, ?_, hafter, hkeeps.trans hkept,
          .cons (hstands.mono hkept) hforall⟩
        simp only [Console.resolveArguments, hfirst, hrest, Except.map]

/-! ### Preparation -/

/-- An argument that came to a front is a reference to the front's actor. -/
theorem Created.get?_of_standsFor (h : Created limits table done r) {arguments : List Argument}
    {parameters : List Parameter} (hforall : List.Forall₂ (StandsFor r) arguments parameters)
    {shared : Shared Front} (hmem : .front shared ∈ parameters) :
    r.made.get? shared.value.actor = some shared := by
  induction hforall with
  | nil => cases hmem
  | @cons argument parameter arguments parameters hstands _ ih =>
    rcases List.mem_cons.1 hmem with rfl | hmem
    · cases argument with
      | reference reference =>
        obtain ⟨found, hfound, hmade⟩ := hstands
        cases hfound
        obtain ⟨grip, hgrip, hvalue⟩ := h.made _ _ hmade
        have hactor : shared.value.actor = reference.actor := by
          rw [hvalue, Front.actor_ofGrip, ObjectTable.actor_of_get? hgrip]
        rw [hactor, hmade]
      | _ => cases hstands
    · exact ih hmem

/-- Preparing a record from its own table fails exactly if one of its references is the first
    to its actor and is not described as it expects. The fault is that of the first such
    reference; no id has been drawn then, and fronts have been made for the actors before it.
    A message takes one id, and there is one front for each actor, which all parameters that
    stand for the actor share. -/
theorem Record.prepare_outcome (record : Record) (limits : Limits) (ids : IdSource) :
    let run := record.prepare ids (⟨record.objects, limits, .empty⟩ : TableResolver)
    ((∃ fault, run.1 = .error fault) ↔
      ∃ before reference after, record.references = before ++ reference :: after ∧
        Refuses record.objects before reference) ∧
    (∀ fault, run.1 = .error fault → ∃ before reference,
      StopsAt record.objects record.references before reference ∧
      fault = .unresolvable reference ∧ run.2.1 = ids ∧
      Created limits record.objects before run.2.2) ∧
    (∀ message, run.1 = .ok message →
      message.id = ids.next.1 ∧ run.2.1 = ids.next.2 ∧
      Created limits record.objects record.references run.2.2 ∧
      ∃ parameters, List.Forall₂ (StandsFor run.2.2) record.arguments parameters ∧
        message = (⟨record, parameters⟩ : ResolvedRecord).message ids.next.1 ∧
        ∀ shared, .front shared ∈ message.parameters →
          run.2.2.made.get? shared.value.actor = some shared) := by
  intro run
  have hrun : run = record.prepare ids (⟨record.objects, limits, .empty⟩ : TableResolver) := rfl
  have hcreated := Created.nil limits record.objects
  rcases hcreated.resolveArguments (allAccepted_nil record.objects) record.arguments with
    ⟨before, reference, after, hstops, hresolve, hafter⟩ |
    ⟨haccepted, parameters, after, hresolve, hafter, -, hforall⟩
  · have hfailed : run = (.error (.unresolvable reference), ids, after) := by
      simp only [hrun, Record.prepare, Record.resolve, hresolve, Except.map]
    obtain ⟨rest, hsplit⟩ := hstops.split
    refine ⟨⟨fun _ => ⟨before, reference, rest, hsplit, hstops.refused⟩, fun _ => ⟨_, by rw [hfailed]⟩⟩,
      ?_, ?_⟩
    · intro fault hfault
      rw [hfailed] at hfault
      cases hfault
      refine ⟨before, reference, hstops, rfl, by rw [hfailed], by rw [hfailed]; exact hafter⟩
    · intro message hmessage
      rw [hfailed] at hmessage
      cases hmessage
  · have hprepared : run = (.ok ((⟨record, parameters⟩ : ResolvedRecord).message ids.next.1),
        ids.next.2, after) := by
      simp only [hrun, Record.prepare, Record.resolve, hresolve, Except.map]
    refine ⟨⟨?_, ?_⟩, ?_, ?_⟩
    · rintro ⟨fault, hfault⟩
      rw [hprepared] at hfault
      cases hfault
    · rintro ⟨before, reference, rest, hsplit, hrefused⟩
      exact absurd hrefused (haccepted before reference rest hsplit)
    · intro fault hfault
      rw [hprepared] at hfault
      cases hfault
    · intro message hmessage
      rw [hprepared] at hmessage ⊢
      cases hmessage
      refine ⟨rfl, rfl, hafter, parameters, hforall, rfl, fun shared hshared => ?_⟩
      exact hafter.get?_of_standsFor hforall (ResolvedRecord.mem_arguments_of_front hshared)

end Console
