import Mathlib.Data.List.Nodup
import Console.Proofs.Resolution.Creation

/-! # The fronts that a table resolver keeps

    A resolver over a table is asked for references one after the other. Whatever it is asked,
    the fronts that it has made are those of the actors that it has answered, each made once:

    - `Resolver.answers`, `Resolver.answered`: the answers of a run, and the references that
      were answered with a front,
    - `Created.after`: the fronts that a run leaves behind,
    - `Created.get?_of_answers`: every front that was handed out is still there,
    - `TableResolver.run_refused`: a reference that is refused leaves no trace,
    - `TableResolver.cache_spec`: what holds after any run.
-/

namespace Console

variable {limits : Limits} {table : ObjectTable} {done : List Reference} {r : TableResolver}

/-! ### Runs -/

namespace Resolver

variable {σ : Type} [Resolver σ]

/-- The answers to references that are resolved one after the other. -/
def answers (r : σ) : List Reference → List (Except Fault (Shared Front))
  | [] => []
  | reference :: rest => (resolve r reference).1 :: answers (resolve r reference).2 rest

/-- The references that are answered with a front. -/
def answered (r : σ) (calls : List Reference) : List Reference :=
  ((calls.zip (answers r calls)).filter fun call => call.2.isOk).map Prod.fst

section
variable {r next : σ} {reference : Reference} (rest : List Reference)

theorem after_cons {answer : Except Fault (Shared Front)}
    (h : resolve r reference = (answer, next)) :
    after r (reference :: rest) = after next rest := by
  rw [after, List.foldl_cons, h]
  rfl

theorem answers_cons {answer : Except Fault (Shared Front)}
    (h : resolve r reference = (answer, next)) :
    answers r (reference :: rest) = answer :: answers next rest := by
  rw [answers, h]

theorem answered_cons_ok {shared : Shared Front} (h : resolve r reference = (.ok shared, next)) :
    answered r (reference :: rest) = reference :: answered next rest := by
  unfold answered
  rw [answers_cons rest h]
  rfl

theorem answered_cons_error {fault : Fault} (h : resolve r reference = (.error fault, next)) :
    answered r (reference :: rest) = answered next rest := by
  unfold answered
  rw [answers_cons rest h]
  rfl

end

theorem after_append (r : σ) (calls later : List Reference) :
    after r (calls ++ later) = after (after r calls) later := List.foldl_append

theorem answers_append (r : σ) (calls later : List Reference) :
    answers r (calls ++ later) = answers r calls ++ answers (after r calls) later := by
  induction calls generalizing r with
  | nil => rfl
  | cons reference rest ih => exact congrArg _ (ih (resolve r reference).2)

theorem length_answers (r : σ) (calls : List Reference) :
    (answers r calls).length = calls.length := by
  induction calls generalizing r with
  | nil => rfl
  | cons reference rest ih => exact congrArg (· + 1) (ih (resolve r reference).2)

theorem answered_append (r : σ) (calls later : List Reference) :
    answered r (calls ++ later) = answered r calls ++ answered (after r calls) later := by
  unfold answered
  rw [answers_append, List.zip_append (length_answers r calls).symm, List.filter_append,
    List.map_append]

end Resolver

open Resolver (answers answered)

/-! ### What a run leaves behind -/

namespace Created

/-- After a run there is a front for each actor that was answered, and the fronts that were
    there before are kept. -/
theorem after (h : Created limits table done r) (calls : List Reference) :
    Created limits table (done ++ answered r calls) (Resolver.after r calls) ∧
      Keeps r (Resolver.after r calls) := by
  induction calls generalizing r done with
  | nil =>
    have hnil : done ++ answered r [] = done := List.append_nil done
    rw [hnil]
    exact ⟨h, fun _ _ hmade => hmade⟩
  | cons reference rest ih =>
    rcases h.resolve reference with ⟨-, hresolve⟩ | ⟨-, shared, next, hresolve, hnext, hkeeps, -⟩
    · -- a reference that is refused changes nothing
      rw [Resolver.answered_cons_error rest hresolve, Resolver.after_cons rest hresolve]
      exact ih h
    · obtain ⟨hcreated, hkept⟩ := ih hnext
      rw [List.append_assoc, List.singleton_append] at hcreated
      rw [Resolver.answered_cons_ok rest hresolve, Resolver.after_cons rest hresolve]
      exact ⟨hcreated, hkeeps.trans hkept⟩

/-- A front that was handed out is kept for its actor. -/
theorem get?_of_answers (h : Created limits table done r) {calls : List Reference} {i : Nat}
    {reference : Reference} {shared : Shared Front} (hcall : calls[i]? = some reference)
    (hanswer : (answers r calls)[i]? = some (.ok shared)) :
    (Resolver.after r calls).made.get? reference.actor = some shared := by
  induction calls generalizing r done i with
  | nil => cases hcall
  | cons first rest ih =>
    rcases h.resolve first with ⟨-, hresolve⟩ | ⟨-, found, next, hresolve, hnext, -, hmade⟩
    · rw [Resolver.answers_cons rest hresolve] at hanswer
      rw [Resolver.after_cons rest hresolve]
      cases i with
      | zero => cases hanswer
      | succ i => exact ih h hcall hanswer
    · rw [Resolver.answers_cons rest hresolve] at hanswer
      rw [Resolver.after_cons rest hresolve]
      cases i with
      | zero =>
        cases hcall
        cases hanswer
        exact (hnext.after rest).2 _ _ hmade
      | succ i => exact ih hnext hcall hanswer

/-- Fronts of different actors are different instances. -/
theorem actor_eq_of_serial_eq (h : Created limits table done r) {actor other : ActorId}
    {shared found : Shared Front} (hshared : r.made.get? actor = some shared)
    (hfound : r.made.get? other = some found) (hserial : shared.serial = found.serial) :
    actor = other := by
  have hnodup : (r.made.entries.map fun entry => entry.2.serial).Nodup := by
    rw [h.serials]
    exact List.nodup_range
  have hentry := List.inj_on_of_nodup_map hnodup (OrderedMap.get?_eq_some_iff.1 hshared)
    (OrderedMap.get?_eq_some_iff.1 hfound) hserial
  exact congrArg Prod.fst hentry

/-- There are as many fronts as actors of the references done. -/
theorem count_eq (h : Created limits table done r) :
    r.count = (done.map Reference.actor).eraseDups.length := by
  rw [← h.keys, OrderedMap.keys, List.length_map]
  rfl

end Created

/-! ### References that are refused -/

namespace TableResolver

theorem resolve_error {reference : Reference} {fault : Fault}
    (h : (resolve r reference).1 = .error fault) : (resolve r reference).2 = r := by
  unfold resolve at h ⊢
  split
  · rfl
  · split
    · rfl
    · next hmade _ grip hgrip => simp [hmade, hgrip] at h

/-- A reference that is refused might as well not have been asked for. -/
theorem run_refused {reference : Reference} {fault : Fault} {calls : List Reference}
    (h : ((Resolver.after r calls).resolve reference).1 = .error fault) (later : List Reference) :
    Resolver.after r (calls ++ reference :: later) = Resolver.after r (calls ++ later) ∧
      (answers r (calls ++ reference :: later)).eraseIdx calls.length =
        answers r (calls ++ later) := by
  have hsame : (Resolver.resolve (Resolver.after r calls) reference).2 = Resolver.after r calls :=
    resolve_error h
  constructor
  · rw [Resolver.after_append, Resolver.after_append]
    show Resolver.after (Resolver.resolve (Resolver.after r calls) reference).2 later = _
    rw [hsame]
  · rw [Resolver.answers_append, Resolver.answers_append, ← Resolver.length_answers r calls,
      List.eraseIdx_append_of_length_le (Nat.le_refl _), Nat.sub_self]
    show _ ++ answers (Resolver.resolve (Resolver.after r calls) reference).2 later = _
    rw [hsame]

/-- After any references, each front that the resolver holds is that of its actor's grip in the
    table under the limits, and all answers to references to one actor are one instance, which
    no other actor shares. There is one front for each actor that was answered, and their
    number does not fall. A reference that is refused changes nothing: what follows it is
    answered as if it had not been asked for. -/
theorem cache_spec (table : ObjectTable) (limits : Limits) (calls : List Reference) :
    let fresh : TableResolver := ⟨table, limits, .empty⟩
    let r := Resolver.after fresh calls
    (∀ actor shared, r.made.get? actor = some shared → ∃ grip, table.get? actor = some grip ∧
      shared.value = Front.ofGrip limits grip ∧ shared.value.actor = actor) ∧
    (∀ (i j : Nat) (first second : Reference) (shared other : Shared Front),
      calls[i]? = some first → calls[j]? = some second →
      (answers fresh calls)[i]? = some (.ok shared) → (answers fresh calls)[j]? = some (.ok other) →
      (first.actor = second.actor → shared = other) ∧
        (shared.serial = other.serial → first.actor = second.actor)) ∧
    r.count = ((answered fresh calls).map Reference.actor).eraseDups.length ∧
    (∀ later, r.count ≤ (Resolver.after fresh (calls ++ later)).count) ∧
    (∀ reference fault, (r.resolve reference).1 = .error fault →
      (r.resolve reference).2 = r ∧
      ∀ later, Resolver.after fresh (calls ++ reference :: later) =
          Resolver.after fresh (calls ++ later) ∧
        (answers fresh (calls ++ reference :: later)).eraseIdx calls.length =
          answers fresh (calls ++ later)) := by
  intro fresh r
  have hfresh : Created limits table [] fresh := Created.nil limits table
  have hcreated : ∀ calls, Created limits table (answered fresh calls)
      (Resolver.after fresh calls) := fun calls => (hfresh.after calls).1
  refine ⟨?_, ?_, (hcreated calls).count_eq, ?_, ?_⟩
  · intro actor shared hmade
    obtain ⟨grip, hgrip, hvalue⟩ := (hcreated calls).made actor shared hmade
    rw [(hcreated calls).limits] at hvalue
    refine ⟨grip, hgrip, hvalue, ?_⟩
    rw [hvalue, Front.actor_ofGrip, ObjectTable.actor_of_get? hgrip]
  · intro i j first second shared other hi hj hshared hother
    have hfirst := hfresh.get?_of_answers hi hshared
    have hsecond := hfresh.get?_of_answers hj hother
    constructor
    · intro hactor
      rw [hactor, hsecond] at hfirst
      exact (Option.some.inj hfirst).symm
    · intro hserial
      exact (hcreated calls).actor_eq_of_serial_eq hfirst hsecond hserial
  · intro later
    rw [(hcreated calls).count_eq, (hcreated (calls ++ later)).count_eq, Resolver.answered_append,
      List.map_append, List.eraseDups_append, List.length_append]
    exact Nat.le_add_right _ _
  · intro reference fault hfault
    exact ⟨resolve_error hfault, run_refused hfault⟩

/-- A symbol that is asked for as an object is refused until its front has been made. -/
example :
    let fresh : TableResolver := ⟨.ofList [.symbol ⟨"s"⟩ none], {}, .empty⟩
    let calls : List Reference := [⟨⟨"s"⟩, .object⟩, ⟨⟨"s"⟩, .symbol⟩, ⟨⟨"s"⟩, .object⟩]
    answered fresh calls = [⟨⟨"s"⟩, .symbol⟩, ⟨⟨"s"⟩, .object⟩] ∧
      (Resolver.after fresh calls).count = 1 := by
  decide +kernel

end TableResolver

end Console
