import Console.Proofs.Message.Content
import Console.Proofs.Resolution.Table

/-! # What references stand for

    `contentOf` says what arguments come to if each reference stands for the front of its
    actor's grip in a table, or is refused if there is none of its type. Both resolvers
    answer just this, up to the identities of fronts:

    - `TableResolver.resolveArguments_content`: a resolver over a table, where references
      have the types of their grips,
    - `ResolvedFronts.resolveArguments_content`: a resolver that holds all fronts needed.
-/

namespace Console

variable {limits : Limits} {table : ObjectTable}

/-! ### Contents -/

/-- What an argument comes to, without the identity of its front. -/
def Argument.content (limits : Limits) (table : ObjectTable) :
    Argument → Except Fault Parameter
  | .text value => .ok (.text value)
  | .number value => .ok (.number value)
  | .bool value => .ok (.bool value)
  | .literal value => .ok (.literal value)
  | .reference r =>
    match TableResolver.describe? table r with
    | some grip => .ok (.front ⟨0, Front.ofGrip limits grip⟩)
    | none => .error (.unresolvable r)

/-- What arguments come to, up to the first that is refused. -/
def contentOf (limits : Limits) (table : ObjectTable) :
    List Argument → Except Fault (List Parameter)
  | [] => .ok []
  | argument :: rest =>
    match argument.content limits table with
    | .error fault => .error fault
    | .ok parameter => (contentOf limits table rest).map (parameter :: ·)

/-- Parameters without identities. -/
def Parameter.contents (parameters : List Parameter) : List Parameter := parameters.map content

/-- The first reference without a grip of its type is the one that is refused. -/
theorem contentOf_eq_error {arguments : List Argument} {reference : Reference}
    (h : (arguments.filterMap Argument.reference?).find?
      (fun r => (TableResolver.describe? table r).isNone) = some reference) :
    contentOf limits table arguments = .error (.unresolvable reference) := by
  induction arguments with
  | nil => cases h
  | cons argument rest ih =>
    cases argument with
    | reference first =>
      simp only [List.filterMap_cons, Argument.reference?] at h
      cases hget : TableResolver.describe? table first with
      | none =>
        rw [List.find?_cons_of_pos (by simp [hget])] at h
        cases h
        simp [contentOf, Argument.content, hget]
      | some grip =>
        rw [List.find?_cons_of_neg (by simp [hget])] at h
        simp [contentOf, Argument.content, hget, ih h, Except.map]
    | _ =>
      simp only [List.filterMap_cons, Argument.reference?] at h
      simp [contentOf, Argument.content, ih h, Except.map]

/-- Arguments none of whose references is refused come to parameters. -/
theorem exists_contentOf_eq_ok {arguments : List Argument}
    (h : ∀ reference ∈ arguments.filterMap Argument.reference?,
      (TableResolver.describe? table reference).isSome) :
    ∃ parameters, contentOf limits table arguments = .ok parameters := by
  induction arguments with
  | nil => exact ⟨[], rfl⟩
  | cons argument rest ih =>
    obtain ⟨parameters, hrest⟩ := ih fun reference hmem => h reference (by
      obtain ⟨found, hfound, hreference⟩ := List.mem_filterMap.1 hmem
      exact List.mem_filterMap.2 ⟨found, List.mem_cons_of_mem _ hfound, hreference⟩)
    cases argument with
    | reference first =>
      obtain ⟨grip, hgrip⟩ := Option.isSome_iff_exists.1 (h first List.mem_cons_self)
      simp [contentOf, Argument.content, hgrip, hrest, Except.map]
    | _ => simp [contentOf, Argument.content, hrest, Except.map]

/-- Tables that hold the same grips for all references make the same of arguments. -/
theorem contentOf_congr {other : ObjectTable} {arguments : List Argument}
    (h : ∀ reference ∈ arguments.filterMap Argument.reference?,
      table.get? reference.actor = other.get? reference.actor) :
    contentOf limits table arguments = contentOf limits other arguments := by
  induction arguments with
  | nil => rfl
  | cons argument rest ih =>
    have hrest := ih fun reference hmem => h reference (by
      obtain ⟨found, hfound, hreference⟩ := List.mem_filterMap.1 hmem
      exact List.mem_filterMap.2 ⟨found, List.mem_cons_of_mem _ hfound, hreference⟩)
    have hfirst : argument.content limits table = argument.content limits other := by
      cases argument with
      | reference first =>
        have hget := h first List.mem_cons_self
        simp only [Argument.content, TableResolver.describe?, hget]
      | _ => rfl
    rw [contentOf, contentOf, hfirst, hrest]

/-- A resolver that answers each argument with its content, and stays one that does, answers
    all of them so. -/
theorem resolveArguments_content_of_step {σ : Type} [Resolver σ] (good : σ → Prop)
    (asked : Reference → Prop)
    (hstep : ∀ r argument, good r → (∀ reference, argument.reference? = some reference → asked reference) →
      (resolveArgument r argument).1.map Parameter.content = argument.content limits table ∧
        good (resolveArgument r argument).2)
    {r : σ} {arguments : List Argument} (hgood : good r)
    (hasked : ∀ reference ∈ arguments.filterMap Argument.reference?, asked reference) :
    (resolveArguments r arguments).1.map Parameter.contents = contentOf limits table arguments := by
  induction arguments generalizing r with
  | nil => rfl
  | cons argument rest ih =>
    have hfirst : ∀ reference, argument.reference? = some reference → asked reference := by
      intro reference h
      exact hasked reference (List.mem_filterMap.2 ⟨argument, List.mem_cons_self, h⟩)
    have hrest : ∀ reference ∈ rest.filterMap Argument.reference?, asked reference := by
      intro reference h
      obtain ⟨found, hmem, hfound⟩ := List.mem_filterMap.1 h
      exact hasked reference (List.mem_filterMap.2 ⟨found, List.mem_cons_of_mem _ hmem, hfound⟩)
    obtain ⟨hresult, hafter⟩ := hstep r argument hgood hfirst
    rw [resolveArguments_cons, contentOf, ← hresult, ← ih hafter hrest]
    cases (resolveArgument r argument).1 with
    | error fault => rfl
    | ok parameter =>
      cases (resolveArguments (resolveArgument r argument).2 rest).1 with
      | error => rfl
      | ok => rfl

/-- What a record comes to follows from what its arguments do. -/
theorem Record.erased_resolve {σ : Type} [Resolver σ] {r : σ} {record : Record}
    {contents : Except Fault (List Parameter)}
    (h : (resolveArguments r record.arguments).1.map Parameter.contents = contents) :
    (record.resolve r).1.map ResolvedRecord.erased = contents.map (⟨record, ·⟩) := by
  subst h
  unfold Record.resolve
  cases resolveArguments r record.arguments with
  | mk result after =>
    cases result with
    | error => rfl
    | ok => rfl

/-! ### From a table -/

namespace TableResolver

/-- Says that a resolver has the given limits and table, and has made only fronts of the
    grips that are found. -/
structure Faithful (limits : Limits) (table : ObjectTable) (find : ActorId → Option Grip)
    (r : TableResolver) : Prop where
  limits : r.limits = limits
  table : r.table = table
  made : ∀ actor shared, r.made.get? actor = some shared →
    ∃ grip, find actor = some grip ∧ shared.value = Front.ofGrip r.limits grip

theorem faithful_empty (limits : Limits) (table : ObjectTable) {find : ActorId → Option Grip} :
    Faithful limits table find ⟨table, limits, .empty⟩ := ⟨rfl, rfl, fun _ _ h => nomatch h⟩

theorem resolveArgument_content {r : TableResolver} {argument : Argument}
    (hr : Faithful limits table table.get? r)
    (hasked : ∀ reference, argument.reference? = some reference →
      ∀ grip, table.get? reference.actor = some grip → grip.type = reference.type) :
    (resolveArgument r argument).1.map Parameter.content = argument.content limits table ∧
      Faithful limits table table.get? (resolveArgument r argument).2 := by
  obtain ⟨rfl, rfl, hmade⟩ := hr
  cases argument with
  | reference reference =>
    have htype := hasked reference rfl
    cases hshared : r.made.get? reference.actor with
    | some shared =>
      obtain ⟨grip, hgrip, hvalue⟩ := hmade reference.actor shared hshared
      have hsome := describe?_eq_some_iff.2 ⟨hgrip, htype grip hgrip⟩
      simp only [resolveArgument, Resolver.resolve, resolve_made hshared, Argument.content, hsome]
      exact ⟨by simp [Except.map, Parameter.content, hvalue], rfl, rfl, hmade⟩
    | none =>
      cases hgrip : describe? r.table reference with
      | none =>
        simp only [resolveArgument, Resolver.resolve, resolve_refused hshared hgrip,
          Argument.content, hgrip]
        exact ⟨rfl, rfl, rfl, hmade⟩
      | some grip =>
        simp only [resolveArgument, Resolver.resolve, resolve_fresh hshared hgrip,
          Argument.content, hgrip]
        refine ⟨rfl, rfl, rfl, ?_⟩
        intro actor shared hactor
        by_cases heq : actor = reference.actor
        · subst heq
          rw [OrderedMap.get?_insert_self] at hactor
          cases hactor
          exact ⟨grip, (describe?_eq_some_iff.1 hgrip).1, rfl⟩
        · rw [OrderedMap.get?_insert_ne _ _ heq] at hactor
          exact hmade actor shared hactor
  | _ => exact ⟨rfl, rfl, rfl, hmade⟩

/-- A table answers with the fronts of its grips. -/
theorem resolveArguments_content {arguments : List Argument}
    (hasked : ∀ reference ∈ arguments.filterMap Argument.reference?,
      ∀ grip, table.get? reference.actor = some grip → grip.type = reference.type) :
    (resolveArguments (⟨table, limits, .empty⟩ : TableResolver) arguments).1.map
      Parameter.contents = contentOf limits table arguments :=
  resolveArguments_content_of_step (Faithful limits table table.get?) _
    (fun _ _ => resolveArgument_content) (faithful_empty limits table) hasked

end TableResolver

/-! ### From finished fronts -/

namespace ResolvedFronts

/-- Says that the front of a reference's actor is there, and is that of the table's grip. -/
def Answers (r : ResolvedFronts) (limits : Limits) (table : ObjectTable) (reference : Reference) :
    Prop :=
  ∃ shared grip, r.get? reference.actor = some shared ∧ table.get? reference.actor = some grip ∧
    shared.value = Front.ofGrip limits grip

theorem resolveArgument_content {r : ResolvedFronts} {argument : Argument}
    (h : ∀ reference, argument.reference? = some reference → r.Answers limits table reference) :
    (resolveArgument r argument).1.map Parameter.content = argument.content limits table ∧
      (resolveArgument r argument).2 = r := by
  cases argument with
  | reference reference =>
    obtain ⟨shared, grip, hget, hgrip, hvalue⟩ := h reference rfl
    -- the front is checked for the type that the table checks its grip for
    have htype : shared.value.type = grip.type := by rw [hvalue, Front.type_ofGrip]
    by_cases hsame : grip.type = reference.type
    · have hsome := TableResolver.describe?_eq_some_iff.2 ⟨hgrip, hsame⟩
      have hfilter : (r.get? reference.actor).filter
          (fun shared => shared.value.type == reference.type) = some shared := by
        rw [hget, Option.filter_some, if_pos (by simp [htype, hsame])]
      simp [resolveArgument, Resolver.resolve, resolve, hfilter, Argument.content, hsome,
        Except.map, Parameter.content, hvalue]
    · have hnone := TableResolver.describe?_mistyped hgrip hsame
      have hfilter : (r.get? reference.actor).filter
          (fun shared => shared.value.type == reference.type) = none := by
        rw [hget, Option.filter_some, if_neg (by simp [htype, hsame])]
      simp [resolveArgument, Resolver.resolve, resolve, hfilter, Argument.content, hnone, Except.map]
  | _ => exact ⟨rfl, rfl⟩

/-- Fronts answer with the fronts of the grips, if they hold all that are asked for. -/
theorem resolveArguments_content {r : ResolvedFronts} {arguments : List Argument}
    (h : ∀ reference ∈ arguments.filterMap Argument.reference?, r.Answers limits table reference) :
    (resolveArguments r arguments).1.map Parameter.contents = contentOf limits table arguments := by
  refine resolveArguments_content_of_step (· = r) _ ?_ rfl h
  rintro _ argument rfl hasked
  exact resolveArgument_content hasked

end ResolvedFronts

end Console
