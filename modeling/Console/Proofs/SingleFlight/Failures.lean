import Console.Proofs.SingleFlight.Invariant
import Console.Proofs.SingleFlight.Moves

/-! # Failed fetches

    A fetch that fails finishes the call that made it with its fault, and that is all that
    comes of it: other calls stand where they stood, the cells of other actors are as they
    were, and that of its own is empty and free for the next call. A fetch whose call is
    dropped leaves the same.

    - `FailingRun`: runs with the fetches that failed, each by the call that made it,
    - `failed_iff`, `FailingRun.nodup`: the calls that failed are those calls, once each,
    - `Releases`: what the end of a fetch without a front leaves,
    - `Unblocked`: nobody waits in vain for an actor; a free cell is fetched by the next call.
-/

namespace Console.SingleFlight

variable {limits : Limits} {s t : State} {id : Nat} {reference : Reference} {actor : ActorId}
  {failures : List (Nat × Fault)} {fault : Fault}

/-! ### Failures of a run -/

/-- The fetch that a move makes fail, by the call that made it. -/
def State.failure? (s : State) : Move → Option (Nat × Fault)
  | .reply id reply =>
    match s.calls[id]? with
    | some ⟨reference, .fetching⟩ =>
      match reply.judge reference with
      | .ok _ => none
      | .error fault => some (id, fault)
    | _ => none
  | _ => none

/-- The states that moves lead to from the start, with the fetches that failed on the way. -/
inductive FailingRun (limits : Limits) : List (Nat × Fault) → State → Prop where
  | start : FailingRun limits [] {}
  | step {failures : List (Nat × Fault)} {s t : State} {move : Move} :
      FailingRun limits failures s → s.step? limits move = some t →
      FailingRun limits (failures ++ (s.failure? move).toList) t

/-- The reachable states are those of such runs. -/
theorem reachable_iff_failingRun : Reachable limits s ↔ ∃ failures, FailingRun limits failures s := by
  constructor
  · intro h
    induction h with
    | start => exact ⟨[], .start⟩
    | step _ hstep ih =>
      obtain ⟨failures, hrun⟩ := ih
      exact ⟨_, .step hrun hstep⟩
  · rintro ⟨failures, hrun⟩
    induction hrun with
    | start => exact .start
    | step _ hstep ih => exact .step ih hstep

/-! ### Calls that failed -/

section
variable {move : Move} {before : Option Stage} {after : Stage} {cell cell' : Cell}

/-- A move makes a fetch fail exactly if it finishes the call with a fault. -/
theorem Shift.failure?_iff (h : Shift limits id reference move before cell after cell')
    (hbefore : s.calls[id]? = before.map (Call.mk reference)) (other : Nat) :
    s.failure? move = some (other, fault) ↔ other = id ∧ after = .finished (.error fault) := by
  cases h with
  | found | first | joined | served | next | left | abandoned => simp [State.failure?]
  | succeeded hjudge => simp [State.failure?, hbefore, hjudge]
  | failed hjudge => simp [State.failure?, hbefore, hjudge, eq_comm]

/-- The call of a move has not finished before it. -/
theorem Shift.outcome?_before (h : Shift limits id reference move before cell after cell')
    (hbefore : s.calls[id]? = before.map (Call.mk reference)) : s.outcome? id = none := by
  rw [State.outcome?_eq, hbefore]
  cases h <;> rfl

/-- What has come of the calls after a move. -/
theorem Effect.outcome?_after (h : Effect s id reference before after cell t) (other : Nat) :
    t.outcome? other =
      if other = id then (Call.mk reference after).outcome? else s.outcome? other := by
  by_cases hother : other = id
  · rw [if_pos hother, hother, State.outcome?_eq, h.getElem?_self, Option.bind_some]
  · rw [if_neg hother, State.outcome?_eq, h.getElem?_ne hother, State.outcome?_eq]

end

theorem Call.outcome?_eq_some_iff {stage : Stage} {outcome : Except Fault (Shared Front)} :
    (Call.mk reference stage).outcome? = some outcome ↔ stage = .finished outcome := by
  cases stage <;> simp [Call.outcome?]

/-- A call has failed exactly if its own fetch has, and with the fault of that fetch. -/
theorem failed_iff (h : FailingRun limits failures s) :
    s.outcome? id = some (.error fault) ↔ (id, fault) ∈ failures := by
  induction h generalizing id fault with
  | start => simp [State.outcome?]
  | @step failures s t move _ hstep ih =>
    obtain ⟨moved, reference, before, after, cell, hshift, heffect⟩ := shifts_of_step? hstep
    have hnew : s.failure? move = some (id, fault) ↔ id = moved ∧ after = .finished (.error fault) :=
      hshift.failure?_iff heffect.before id
    rw [heffect.outcome?_after, List.mem_append, ← ih, Option.mem_toList, hnew]
    by_cases hid : id = moved
    · subst hid
      rw [if_pos rfl, Call.outcome?_eq_some_iff, hshift.outcome?_before heffect.before]
      simp
    · rw [if_neg hid]
      simp [hid]

/-- No call makes two fetches that fail. -/
theorem FailingRun.nodup (h : FailingRun limits failures s) : (failures.map Prod.fst).Nodup := by
  induction h with
  | start => exact List.nodup_nil
  | @step failures s t move hrun hstep ih =>
    obtain ⟨moved, reference, before, after, cell, hshift, heffect⟩ := shifts_of_step? hstep
    cases hfailure : s.failure? move with
    | none => simpa using ih
    | some failure =>
      obtain ⟨id, fault⟩ := failure
      obtain ⟨rfl, -⟩ := (hshift.failure?_iff heffect.before id).1 hfailure
      rw [Option.toList_some, List.map_append, List.nodup_append]
      refine ⟨ih, List.nodup_singleton _, ?_⟩
      intro first hfirst last hlast
      rw [List.map_singleton, List.mem_singleton] at hlast
      subst hlast
      -- a call that had failed before would have finished, and could not fetch now
      rintro rfl
      obtain ⟨⟨id, earlier⟩, hmem, rfl⟩ := List.mem_map.1 hfirst
      have hfailed := (failed_iff hrun).2 hmem
      rw [hshift.outcome?_before heffect.before] at hfailed
      cases hfailed

/-! ### What a failure leaves -/

/-- Says that the fetch of a call has ended without a front: the call is at another stage,
    the cell is empty and free, with the line that it had, and all else is as it was. -/
structure Releases (s : State) (id : Nat) (reference : Reference) (stage : Stage) (t : State) :
    Prop where
  ended : t.calls[id]? = some ⟨reference, stage⟩
  calls : ∀ other, other ≠ id → t.calls[other]? = s.calls[other]?
  cell : t.cell reference.actor = { queue := (s.cell reference.actor).queue }
  cells : ∀ actor, actor ≠ reference.actor → t.cell actor = s.cell actor

/-- While an actor is fetched its cell has no front. -/
theorem cell_of_fetching (h : Reachable limits s)
    (hcall : s.calls[id]? = some ⟨reference, .fetching⟩) :
    (s.cell reference.actor).front = none := by
  obtain ⟨history, hrun⟩ := reachable_iff_run.1 h
  have hflight : Flight s history := by simpa using Flight.start.run hrun
  exact (hflight.of_fetching hcall).2

/-- The end of a fetch without a front leaves no more than that. -/
theorem releases_of_effect {stage : Stage} (h : Reachable limits s)
    (heffect : Effect s id reference (some .fetching) stage
      { s.cell reference.actor with holder := none } t) : Releases s id reference stage t where
  ended := heffect.getElem?_self
  calls := fun _ hne => heffect.getElem?_ne hne
  cell := by
    have hfront := cell_of_fetching h heffect.before
    rw [heffect.cell]
    simp only [hfront]
  cells := heffect.cells

/-! ### Nobody waits in vain -/

/-- Says that call `id` fetches the actor in `t`, which is one fetch more than in `s`. -/
structure BeginsFetch (s : State) (actor : ActorId) (id : Nat) (t : State) : Prop where
  fetching : t.Stands actor .fetching id
  holder : (t.cell actor).holder = some id
  fetchCount : t.fetchCount actor = s.fetchCount actor + 1

theorem Effect.beginsFetch {before : Option Stage} {cell : Cell}
    (h : Effect s id reference before .fetching cell t) (hholder : cell.holder = some id) :
    BeginsFetch s reference.actor id t where
  fetching := h.stands_self.2 ⟨rfl, rfl⟩
  holder := by rw [h.cell, hholder]
  fetchCount := by
    unfold State.fetchCount
    rw [h.fetches]
    simp [Stage.isFetching]

/-- Says that no call for an actor is blocked: if there is a front, all that wait can finish
    with it; and if the cell is empty and free, the next call can fetch, which is the first
    of those that wait or, if nobody waits, a new one. -/
structure Unblocked (limits : Limits) (s : State) (actor : ActorId) : Prop where
  shares : ∀ shared id, (s.cell actor).front = some shared → s.Stands actor .waiting id →
    ∃ t, s.step? limits (.resume id) = some t ∧ t.outcome? id = some (.ok shared)
  waiting : ∀ id, (s.cell actor).front = none → (s.cell actor).holder = none →
    s.Stands actor .waiting id → (∀ other, other < id → ¬ s.Stands actor .waiting other) →
    ∃ t, s.step? limits (.resume id) = some t ∧ BeginsFetch s actor id t
  new : ∀ type, (s.cell actor).front = none → (s.cell actor).holder = none →
    (∀ id, ¬ s.Stands actor .waiting id) →
    ∃ t, s.step? limits (.call ⟨actor, type⟩) = some t ∧ BeginsFetch s actor s.calls.length t

/-- The first call that waits is the next in line. -/
theorem Orderly.queue_eq_cons (h : Orderly s) (hwaits : s.Stands actor .waiting id)
    (hfirst : ∀ other, other < id → ¬ s.Stands actor .waiting other) :
    ∃ rest, (s.cell actor).queue = id :: rest := by
  have hmem := (h.queue actor id).2 hwaits
  have hsorted := h.sorted actor
  cases hqueue : (s.cell actor).queue with
  | nil =>
    rw [hqueue] at hmem
    cases hmem
  | cons next rest =>
    rw [hqueue] at hmem hsorted
    rcases List.mem_cons.1 hmem with rfl | hrest
    · exact ⟨rest, rfl⟩
    · -- the one in front of it would have been the first
      have hlt : next < id := (List.pairwise_cons.1 hsorted).1 id hrest
      have hnext := (h.queue actor next).1 (hqueue ▸ List.mem_cons_self)
      exact absurd hnext (hfirst next hlt)

theorem Orderly.unblocked (h : Orderly s) (actor : ActorId) : Unblocked limits s actor := by
  cases hcell : s.cell actor with
  | mk front holder queue =>
    constructor
    case shares =>
      rintro shared id hfront ⟨type, hcall⟩
      rw [hcell] at hfront
      cases hfront
      obtain ⟨t, hstep, heffect⟩ := exists_resume_served limits hcall hcell
      exact ⟨t, hstep, heffect.outcome?_self⟩
    case waiting =>
      intro id hfront hholder hwaits hfirst
      obtain ⟨rest, hqueue⟩ := h.queue_eq_cons hwaits hfirst
      obtain ⟨type, hcall⟩ := hwaits
      rw [hcell] at hfront hholder hqueue
      cases hfront
      cases hholder
      cases hqueue
      obtain ⟨t, hstep, heffect⟩ := exists_resume_next limits hcall hcell
      exact ⟨t, hstep, heffect.beginsFetch rfl⟩
    case new =>
      intro type hfront hholder hnobody
      have hqueue : queue = [] := by
        refine List.eq_nil_iff_forall_not_mem.2 fun id hmem => ?_
        exact hnobody id ((h.queue actor id).1 (by rw [hcell]; exact hmem))
      rw [hcell] at hfront hholder
      cases hfront
      cases hholder
      subst hqueue
      have heffect := @effect_call_first s ⟨actor, type⟩ hcell
      exact ⟨_, rfl, heffect.beginsFetch rfl⟩

/-! ### Failures reach one call each -/

/-- In every run the calls that failed are those whose own fetch failed, with its fault, and
    each of these fetches failed one call. The end of a fetch without a front, be it that
    the fetch failed or that its call was dropped, leaves all other calls and the cells of
    all other actors as they are, and the cell of its own empty and free; a call that is
    dropped while it waits only leaves its line. Cells are held by the calls that fetch and
    by no others, and no call is blocked. -/
theorem failure_reaches_one_call (h : FailingRun limits failures s) :
    ((∀ id fault, s.outcome? id = some (.error fault) ↔ (id, fault) ∈ failures) ∧
      (failures.map Prod.fst).Nodup) ∧
    (∀ id reference, s.calls[id]? = some ⟨reference, .fetching⟩ →
      (∀ reply fault, reply.judge reference = .error fault →
        ∃ t, s.step? limits (.reply id reply) = some t ∧
          Releases s id reference (.finished (.error fault)) t) ∧
      ∃ t, s.step? limits (.drop id) = some t ∧ Releases s id reference (.dropped true) t) ∧
    (∀ id reference, s.calls[id]? = some ⟨reference, .waiting⟩ →
      ∃ t, s.step? limits (.drop id) = some t ∧
        (∀ other, other ≠ id → t.calls[other]? = s.calls[other]?) ∧
        (t.cell reference.actor).front = (s.cell reference.actor).front ∧
        (t.cell reference.actor).holder = (s.cell reference.actor).holder ∧
        ∀ actor, actor ≠ reference.actor → t.cell actor = s.cell actor) ∧
    (∀ actor id, (s.cell actor).holder = some id ↔ s.Stands actor .fetching id) ∧
    ∀ actor, Unblocked limits s actor := by
  have hreachable : Reachable limits s := reachable_iff_failingRun.2 ⟨failures, h⟩
  have horderly : Orderly s := orderly_of_reachable hreachable
  refine ⟨⟨fun id fault => failed_iff h, h.nodup⟩, ?_, ?_, horderly.holder, horderly.unblocked⟩
  · intro id reference hcall
    constructor
    · intro reply fault hjudge
      obtain ⟨t, hstep, heffect⟩ := exists_reply_error limits hcall hjudge
      exact ⟨t, hstep, releases_of_effect hreachable heffect⟩
    · obtain ⟨t, hstep, heffect⟩ := exists_drop_fetching limits hcall
      exact ⟨t, hstep, releases_of_effect hreachable heffect⟩
  · intro id reference hcall
    obtain ⟨t, hstep, heffect⟩ := exists_drop_waiting limits hcall
    exact ⟨t, hstep, fun _ hne => heffect.getElem?_ne hne, by rw [heffect.cell],
      by rw [heffect.cell], heffect.cells⟩

/-- Two calls for one actor and one for another: the first fails, the second fetches anew,
    and the third is fetching as before. -/
theorem exists_failure_reaches_one_call : ∃ s, FailingRun {} [(0, .unavailable ⟨"a"⟩ "gone")] s ∧
    (∀ id fault, s.outcome? id = some (.error fault) ↔ (id, fault) = (0, .unavailable ⟨"a"⟩ "gone")) ∧
    (s.cell ⟨"b"⟩).holder = some 2 ∧
    ∃ t, s.step? {} (.resume 1) = some t ∧ BeginsFetch s ⟨"a"⟩ 1 t := by
  have h₁ := @FailingRun.step {} _ _ _ (.call ⟨⟨"a"⟩, .symbol⟩) .start rfl
  have h₂ := @FailingRun.step {} _ _ _ (.call ⟨⟨"a"⟩, .symbol⟩) h₁ rfl
  have h₃ := @FailingRun.step {} _ _ _ (.call ⟨⟨"b"⟩, .object⟩) h₂ rfl
  have h₄ := @FailingRun.step {} _ _ _ (.reply 0 (.failed (.unavailable ⟨"a"⟩ "gone"))) h₃ rfl
  obtain ⟨⟨hfailed, -⟩, -, -, hholder, hunblocked⟩ := failure_reaches_one_call h₄
  refine ⟨_, h₄, ?_, (hholder ⟨"b"⟩ 2).2 ⟨.object, rfl⟩, ?_⟩
  · intro id fault
    rw [hfailed]
    exact List.mem_singleton
  · refine (hunblocked ⟨"a"⟩).waiting 1 rfl rfl ⟨.symbol, rfl⟩ ?_
    rintro other hlt ⟨type, hcall⟩
    -- the only call before it has failed
    obtain rfl : other = 0 := by omega
    cases hcall

end Console.SingleFlight
