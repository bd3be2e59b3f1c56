import Console.Proofs.OrderedMap
import Console.Resolution.Basic

/-! # Resolving from a table

    What a table resolver answers to one reference: the front that it has made for the
    actor, whatever type the reference expects; else a new front, if the actor is
    described under that type; else that the reference cannot be resolved.
-/

namespace Console

/-! ### Runs -/

/-- The resolver after references have been resolved, one after the other. -/
def Resolver.after {σ : Type} [Resolver σ] (r : σ) (history : List Reference) : σ :=
  history.foldl (fun r reference => (resolve r reference).2) r

/-! ### Arguments one by one -/

/-- The result of resolving arguments is decided by the first and the rest. -/
theorem resolveArguments_cons {σ : Type} [Resolver σ] (r : σ) (argument : Argument)
    (rest : List Argument) :
    (resolveArguments r (argument :: rest)).1 =
      match (resolveArgument r argument).1 with
      | .error fault => .error fault
      | .ok parameter =>
        (resolveArguments (resolveArgument r argument).2 rest).1.map (parameter :: ·) := by
  cases hfirst : resolveArgument r argument with
  | mk result after =>
    cases result with
    | error => simp only [resolveArguments, hfirst]
    | ok => simp only [resolveArguments, hfirst]

namespace TableResolver

/-! ### One reference -/

variable {r : TableResolver} {reference : Reference} {grip : Grip}

/-- The front that the resolver makes next, if it is that of the given grip. -/
def fresh (r : TableResolver) (grip : Grip) : Shared Front :=
  ⟨r.made.size, Front.ofGrip r.limits grip⟩

theorem describe?_eq_some_iff {table : ObjectTable} :
    describe? table reference = some grip ↔
      table.get? reference.actor = some grip ∧ grip.type = reference.type := by
  unfold describe?
  rw [Option.filter_eq_some_iff, beq_iff_eq]

theorem describe?_eq_none {table : ObjectTable} (h : table.get? reference.actor = none) :
    describe? table reference = none := by
  unfold describe?
  rw [h, Option.filter_none]

theorem describe?_mistyped {table : ObjectTable} (h : table.get? reference.actor = some grip)
    (htype : grip.type ≠ reference.type) : describe? table reference = none := by
  cases hfound : describe? table reference with
  | none => rfl
  | some found =>
    obtain ⟨hget, hfound⟩ := describe?_eq_some_iff.1 hfound
    rw [h] at hget
    cases hget
    exact absurd hfound htype

theorem resolve_made {shared : Shared Front} (h : r.made.get? reference.actor = some shared) :
    resolve r reference = (.ok shared, r) := by
  simp [resolve, h]

theorem resolve_refused (hmade : r.made.get? reference.actor = none)
    (h : describe? r.table reference = none) :
    resolve r reference = (.error (.unresolvable reference), r) := by
  simp [resolve, hmade, h]

theorem resolve_fresh (hmade : r.made.get? reference.actor = none)
    (h : describe? r.table reference = some grip) :
    resolve r reference =
      (.ok (r.fresh grip), { r with made := r.made.insert reference.actor (r.fresh grip) }) := by
  simp [resolve, hmade, h, fresh]

/-- A described actor resolves under the type of its grip, whether or not its front has been
    made. -/
theorem exists_of_described (h : r.table.get? reference.actor = some grip) :
    ∃ shared, (resolve r ⟨reference.actor, grip.type⟩).1 = .ok shared := by
  cases hmade : r.made.get? reference.actor with
  | some shared =>
    have hmade' := @resolve_made r ⟨reference.actor, grip.type⟩ shared hmade
    exact ⟨shared, by rw [hmade']⟩
  | none =>
    have hgrip := (@describe?_eq_some_iff ⟨reference.actor, grip.type⟩ grip r.table).2 ⟨h, rfl⟩
    have hfresh := @resolve_fresh r ⟨reference.actor, grip.type⟩ grip hmade hgrip
    exact ⟨r.fresh grip, by rw [hfresh]⟩

/-! ### The table -/

/-- Resolving leaves the table as it is. -/
@[simp] theorem table_resolve (r : TableResolver) (reference : Reference) :
    (resolve r reference).2.table = r.table := by
  unfold resolve
  split
  · rfl
  · split <;> rfl

@[simp] theorem table_resolveArgument (r : TableResolver) (argument : Argument) :
    (resolveArgument r argument).2.table = r.table := by
  cases argument with
  | reference reference => exact table_resolve r reference
  | _ => rfl

end TableResolver

end Console
