import Console.Proofs.SingleFlight.Table

/-! # Joined calls over a table

    Calls joined for references to distinct actors of a table run in order, up to the first
    that is refused. `Answered` says which fronts they finish with and which fault ends
    them; it does not depend on which failure ends the join (`Session.joined_spec`). What
    they leave behind is said by `Served`: a call changes no cell but its actor's, so that
    each finds what the session found before all of them.
-/

namespace Console.SingleFlight

/-! ### Outcomes of calls -/

/-- The outcomes of calls that finished with fronts, and then perhaps one with a fault. -/
def outcomes (fronts : List (Shared Front)) (fault : Option Fault) :
    List (Option (Except Fault (Shared Front))) :=
  fronts.map (fun shared => some (.ok shared)) ++ fault.toList.map fun fault => some (.error fault)

/-- Says what calls for references come to, in order: fronts of the grips that are found, up
    to the first reference for which there is none. -/
inductive Answered (limits : Limits) (find : Reference → Option Grip) :
    List Reference → List (Shared Front) → Option Fault → Prop where
  | nil : Answered limits find [] [] none
  | front {reference : Reference} {rest : List Reference} {grip : Grip} {shared : Shared Front}
      {fronts : List (Shared Front)} {fault : Option Fault} :
      find reference = some grip → shared.value = Front.ofGrip limits grip →
      Answered limits find rest fronts fault →
      Answered limits find (reference :: rest) (shared :: fronts) fault
  | refused {reference : Reference} {rest : List Reference} :
      find reference = none →
      Answered limits find (reference :: rest) [] (some (.unresolvable reference))

theorem Answered.congr {limits : Limits} {find find' : Reference → Option Grip}
    {references : List Reference} {fronts : List (Shared Front)} {fault : Option Fault}
    (h : Answered limits find references fronts fault)
    (hfind : ∀ reference ∈ references, find reference = find' reference) :
    Answered limits find' references fronts fault := by
  induction h with
  | nil => exact .nil
  | front hgrip hvalue _ ih =>
    rw [hfind _ List.mem_cons_self] at hgrip
    exact .front hgrip hvalue (ih fun reference hmem => hfind reference (List.mem_cons_of_mem _ hmem))
  | refused hnone =>
    rw [hfind _ List.mem_cons_self] at hnone
    exact .refused hnone

variable {table : ObjectTable} {limits : Limits} {s t u : Session} {join : Join} {first : Nat}
  {reference : Reference} {references : List Reference} {fronts : List (Shared Front)}
  {fault : Option Fault}

/-- Says what calls for references have made of a session over a table: they were answered
    with what it found before them, it is idle again, the cells of other actors are as they
    were, and if none was refused the fronts of all are cached. -/
structure Served (table : ObjectTable) (limits : Limits) (references : List Reference)
    (fronts : List (Shared Front)) (fault : Option Fault) (s t : Session) : Prop where
  answered : Answered limits (table.grip? s.caches) references fronts fault
  idle : Idle table limits t
  cells : ∀ actor, (∀ reference ∈ references, reference.actor ≠ actor) →
    t.state.cell actor = s.state.cell actor
  cached : fault = none → ∀ reference ∈ references, t.caches reference.actor

theorem served_nil (h : Idle table limits s) : Served table limits [] [] none s s where
  answered := .nil
  idle := h
  cells := fun _ _ => rfl
  cached := fun _ _ hmem => nomatch hmem

/-- The first call is refused, and ends the others. -/
theorem Ends.served {cause : Fault} (h : Ends table limits reference s (.error cause) t)
    (hnone : table.grip? s.caches reference = none) (rest : List Reference) :
    Served table limits (reference :: rest) [] (some (.unresolvable reference)) s t where
  answered := .refused hnone
  idle := h.idle
  cells := fun actor ha => h.cells actor (Ne.symm (ha reference List.mem_cons_self))
  cached := fun hfault => nomatch hfault

/-- The first call has a front, and the others find what they would have found without it. -/
theorem Ends.served_cons {shared : Shared Front} {grip : Grip} {rest : List Reference}
    (h : Ends table limits reference s (.ok shared) t)
    (hgrip : table.grip? s.caches reference = some grip)
    (hvalue : shared.value = Front.ofGrip limits grip)
    (hdistinct : ∀ other ∈ rest, reference.actor ≠ other.actor)
    (hrest : Served table limits rest fronts fault t u) :
    Served table limits (reference :: rest) (shared :: fronts) fault s u where
  answered := by
    refine .front hgrip hvalue (hrest.answered.congr fun other hmem => ?_)
    have hsame : t.caches other.actor = s.caches other.actor :=
      congrArg (fun cell => cell.front.isSome) (h.cells other.actor (Ne.symm (hdistinct other hmem)))
    rw [ObjectTable.grip?, ObjectTable.grip?, hsame]
  idle := hrest.idle
  cells := fun actor ha => by
    have hcell := hrest.cells actor fun other hmem => ha other (List.mem_cons_of_mem _ hmem)
    exact hcell.trans (h.cells actor (Ne.symm (ha reference List.mem_cons_self)))
  cached := fun hfault other hmem => by
    rcases List.mem_cons.1 hmem with rfl | hmem
    · have hsame := hrest.cells other.actor fun later hlater => Ne.symm (hdistinct later hlater)
      have hfront := h.front rfl
      unfold Session.caches at hfront ⊢
      rwa [hsame]
    · exact hrest.cached hfault other hmem

namespace Session

/-- The outcomes of the calls from a place on. -/
theorem map_outcome?_range' (s : Session) (first : Nat) :
    (List.range' first (s.state.calls.length - first)).map s.state.outcome? =
      (s.state.calls.drop first).map Call.outcome? := by
  apply List.ext_getElem
  · simp
  · intro i hi _
    have hlt : first + i < s.state.calls.length := by
      rw [List.length_map, List.length_range'] at hi
      omega
    simp [State.outcome?_eq, List.getElem?_eq_getElem hlt]

/-- What ends a join is the fault after the fronts, if there is one, whichever failure the
    join waits for. -/
theorem failure?_eq {ids : List Nat} (hjoin : join ≠ .never)
    (h : ids.map s.state.outcome? = outcomes fronts fault) : s.failure? ids join = fault := by
  induction fronts generalizing ids with
  | nil =>
    cases fault with
    | none =>
      have hids : ids = [] := List.map_eq_nil_iff.1 h
      subst hids
      cases join <;> rfl
    | some cause =>
      cases ids with
      | nil => cases h
      | cons id ids =>
        obtain ⟨hid, -⟩ := List.cons.inj h
        cases join with
        | never => exact absurd rfl hjoin
        | firstInTime => simp only [failure?, anyFailure?, List.findSome?_cons, hid]
        | firstInOrder => simp only [failure?, leadingFailure?, hid]
  | cons shared rest ih =>
    cases ids with
    | nil => cases h
    | cons id ids =>
      obtain ⟨hid, hrest⟩ := List.cons.inj h
      have hih := ih hrest
      cases join with
      | never => exact absurd rfl hjoin
      | firstInTime => simpa only [failure?, anyFailure?, List.findSome?_cons, hid] using hih
      | firstInOrder => simpa only [failure?, leadingFailure?, hid] using hih

/-! ### The first round -/

/-- Calls started in order end as the session answers, after those that finished before. -/
theorem startAll_spec (hjoin : join ≠ .never) (h : Idle table limits s)
    (hfirst : first ≤ s.state.calls.length) {done : List (Shared Front)}
    (hdone : (s.state.calls.drop first).map Call.outcome? = outcomes done none)
    (hdistinct : references.Pairwise (·.actor ≠ ·.actor)) :
    ∃ fronts fault,
      Served table limits references fronts fault s (s.startAll join first references) ∧
      ((s.startAll join first references).state.calls.drop first).map Call.outcome? =
        outcomes (done ++ fronts) fault := by
  induction references generalizing s done with
  | nil => exact ⟨[], none, served_nil h, by rw [List.append_nil]; exact hdone⟩
  | cons reference rest ih =>
    obtain ⟨hne, hrest⟩ := List.pairwise_cons.1 hdistinct
    obtain ⟨outcome, hends⟩ := start_spec h reference
    -- the invariant of the loop: what has finished so far, and then the call that just ended
    have hdrop : ((s.start reference).state.calls.drop first).map Call.outcome? =
        outcomes done none ++ [some outcome] := by
      rw [hends.calls, List.drop_append_of_le_length hfirst, List.map_append, hdone]
      rfl
    have hids := map_outcome?_range' (s.start reference) first
    rw [hdrop] at hids
    have hsettles := hends.settles
    cases hgrip : table.grip? s.caches reference with
    | none =>
      simp only [Settles, hgrip] at hsettles
      subst hsettles
      have hended : outcomes done none ++ [some (.error (.unresolvable reference))] =
          outcomes done (some (.unresolvable reference)) := by simp [outcomes]
      have hfailure := failure?_eq hjoin (hids.trans hended)
      refine ⟨[], some (.unresolvable reference), ?_⟩
      simp only [startAll, hfailure, Option.isSome_some, if_true, List.append_nil]
      exact ⟨hends.served hgrip rest, hdrop.trans hended⟩
    | some grip =>
      simp only [Settles, hgrip] at hsettles
      obtain ⟨shared, rfl, hvalue⟩ := hsettles
      have hgone : outcomes done none ++ [some (.ok shared)] = outcomes (done ++ [shared]) none := by
        simp [outcomes]
      have hfailure := failure?_eq hjoin (hids.trans hgone)
      obtain ⟨fronts, fault, hserved, hall⟩ := ih hends.idle
        (by rw [hends.calls, List.length_append]; omega) (hdrop.trans hgone) hrest
      refine ⟨shared :: fronts, fault, ?_⟩
      simp only [startAll, hfailure, Option.isSome_none, Bool.false_eq_true, if_false]
      rw [List.append_assoc, List.singleton_append] at hall
      exact ⟨hends.served_cons hgrip hvalue hne hserved, hall⟩

/-! ### Further rounds -/

/-- Calls that have ended go on in no round. -/
theorem rounds_of_settled {ids : List Nat} (h : s.settled ids = true) (n : Nat) :
    s.rounds join ids n = s := by
  cases n with
  | zero => rfl
  | succ n => rw [rounds, h, Bool.true_or, if_pos rfl]

/-- Calls that have ended are not dropped. -/
theorem dropAll_of_settled {ids : List Nat} (h : s.settled ids = true) : s.dropAll ids = s := by
  induction ids with
  | nil => rfl
  | cons id rest ih =>
    rw [settled, List.all_cons, Bool.and_eq_true] at h
    have hdrop : s.state.drop? id = none := by
      have hended := h.1
      unfold State.outcome? at hended
      unfold State.drop?
      split at hended
      · next reference outcome hcall => simp only [hcall]
      · cases hended
    have hmove : s.move (.drop id) = s := by simp [move, State.step?, hdrop]
    rw [dropAll, List.foldl_cons, hmove]
    exact ih h.2

/-- Calls with the outcomes of a list of references have all ended. -/
theorem settled_of_outcomes {ids : List Nat}
    (h : ids.map s.state.outcome? = outcomes fronts fault) : s.settled ids = true := by
  rw [settled, List.all_eq_true]
  intro id hid
  have hmem : s.state.outcome? id ∈ outcomes fronts fault := h ▸ List.mem_map_of_mem hid
  rcases List.mem_append.1 hmem with hmem | hmem
  · obtain ⟨shared, -, heq⟩ := List.mem_map.1 hmem
    rw [← heq]
    rfl
  · obtain ⟨cause, -, heq⟩ := List.mem_map.1 hmem
    rw [← heq]
    rfl

/-- Joined calls over a table end as the session answers. -/
theorem joined_spec (hjoin : join ≠ .never) (h : Idle table limits s)
    (hdistinct : references.Pairwise (·.actor ≠ ·.actor)) :
    ∃ fronts fault, Served table limits references fronts fault s (s.joined join references).2 ∧
      (s.joined join references).1.map (s.joined join references).2.state.outcome? =
        outcomes fronts fault := by
  have hnone : (s.state.calls.drop s.state.calls.length).map Call.outcome? = outcomes [] none := by
    rw [List.drop_length]
    rfl
  obtain ⟨fronts, fault, hserved, hcalls⟩ :=
    startAll_spec hjoin h (Nat.le_refl _) hnone hdistinct
  rw [← map_outcome?_range', List.nil_append] at hcalls
  generalize hstarted : s.startAll join s.state.calls.length references = t at hserved hcalls
  -- every call has ended in the first round, so that neither later rounds nor drops do anything
  have hsettled := settled_of_outcomes hcalls
  have hjoined : s.joined join references =
      (List.range' s.state.calls.length (t.state.calls.length - s.state.calls.length), t) := by
    simp only [joined, hstarted, rounds_of_settled hsettled, dropAll_of_settled hsettled]
  rw [hjoined]
  exact ⟨fronts, fault, hserved, hcalls⟩

end Session

end Console.SingleFlight
