import Console.Proofs.Record.ObjectTable
import Console.Proofs.Resolution.Table
import Console.Proofs.SingleFlight.Moves
import Console.SingleFlight.Session

/-! # Sessions over a table

    A table answers every fetch at once, so a call to a session over a table has ended when
    the next one starts: no cell is held, nobody waits, and every cached front is that of a
    grip of the table (`Idle`).

    What the call ends with depends on the table, and on whether the front of its actor is
    cached: only what is fetched is checked for the type that the reference expects
    (`ObjectTable.grip?`).

    - `Session.start_of_cached`, `Session.start_of_free`: how a call starts, whatever the
      source,
    - `Session.start_spec`: how it ends over a table.
-/

namespace Console

/-- What a session over a table finds for a reference, if it has cached the fronts of the
    given actors. -/
def ObjectTable.grip? (table : ObjectTable) (cached : ActorId → Bool) (reference : Reference) :
    Option Grip :=
  if cached reference.actor then table.get? reference.actor
  else TableResolver.describe? table reference

/-- A grip that is found for a reference is that of its actor. -/
theorem ObjectTable.get?_of_grip? {table : ObjectTable} {cached : ActorId → Bool}
    {reference : Reference} {grip : Grip} (h : table.grip? cached reference = some grip) :
    table.get? reference.actor = some grip := by
  unfold grip? at h
  split at h
  · exact h
  · exact (TableResolver.describe?_eq_some_iff.1 h).1

namespace SingleFlight

/-! ### Calls and answers -/

/-- Whether the front of an actor is cached. -/
def Session.caches (s : Session) (actor : ActorId) : Bool := (s.state.cell actor).front.isSome

namespace Session

variable {s : Session} {reference : Reference} {id : Nat} {reply : Reply}

theorem state_move {m : Move} {t : State} (h : s.state.step? s.limits m = some t) :
    s.move m = { s with state := t } := by
  simp [move, h]

theorem move_call (s : Session) (reference : Reference) :
    s.move (.call reference) = { s with state := s.state.call reference } := state_move rfl

/-- A call to an actor whose front is cached leaves nothing to follow up. -/
theorem start_of_cached {shared : Shared Front} {holder : Option Nat} {queue : List Nat}
    (h : s.state.cell reference.actor = ⟨some shared, holder, queue⟩) :
    s.start reference = { s with state := s.state.call reference } := by
  have hended : (s.state.call reference).isFetching s.state.calls.length = false := by
    simp only [State.isFetching, (effect_call_found h).getElem?_self]
  rw [start, move_call, follow, if_neg (by simp [hended])]

/-- A call that finds its cell free fetches, and awaits the next answer for its actor. -/
theorem start_of_free (h : s.state.cell reference.actor = {}) :
    s.start reference =
      ({ s with
          state := s.state.call reference
          answers := s.answers.insert s.state.calls.length
            (s.source.answer reference.actor (s.state.fetchCount reference.actor)) } :
        Session).await s.state.calls.length := by
  have heffect := effect_call_first h
  have hfetching : (s.state.call reference).isFetching s.state.calls.length = true := by
    simp only [State.isFetching, heffect.getElem?_self]
  have hcount : (s.state.call reference).fetchCount reference.actor - 1 =
      s.state.fetchCount reference.actor := by
    unfold State.fetchCount
    rw [heffect.fetches]
    simp [Stage.isFetching]
  rw [start, move_call, follow, if_pos hfetching, ask, hcount]

theorem await_ready (h : s.answers.get? id = some ⟨0, reply⟩) :
    s.await id = s.move (.reply id reply) := by
  unfold await
  rw [h]

theorem await_delayed {delay : Nat} (h : s.answers.get? id = some ⟨delay + 1, reply⟩) :
    s.await id = { s with answers := s.answers.insert id ⟨delay, reply⟩ } := by
  unfold await
  rw [h]

/-- A call that finds its cell free ends at once with an answer that has no delay. -/
theorem exists_start_of_ready {t : State} (hcell : s.state.cell reference.actor = {})
    (hanswer : s.source.answer reference.actor (s.state.fetchCount reference.actor) = ⟨0, reply⟩)
    (hstep : (s.state.call reference).step? s.limits (.reply s.state.calls.length reply) = some t) :
    ∃ answers, s.start reference = { s with state := t, answers := answers } := by
  refine ⟨s.answers.insert s.state.calls.length ⟨0, reply⟩, ?_⟩
  rw [start_of_free hcell, hanswer, await_ready (OrderedMap.get?_insert_self _ _ _)]
  exact state_move hstep

end Session

/-! ### Idle sessions -/

/-- Says that nothing is in flight in a session over a table, and that what it has cached are
    the fronts of the table's grips. -/
structure Idle (table : ObjectTable) (limits : Limits) (s : Session) : Prop where
  source_eq : s.source = .ofTable table
  limits_eq : s.limits = limits
  holder : ∀ actor, (s.state.cell actor).holder = none
  queue : ∀ actor, (s.state.cell actor).queue = []
  fronts : ∀ actor shared, (s.state.cell actor).front = some shared →
    ∃ grip, table.get? actor = some grip ∧ shared.value = Front.ofGrip limits grip

variable {table : ObjectTable} {limits : Limits} {s : Session} {reference : Reference}

theorem idle_start (table : ObjectTable) (limits : Limits) :
    Idle table limits { limits := limits, source := .ofTable table } :=
  ⟨rfl, rfl, fun _ => rfl, fun _ => rfl, fun _ _ h => nomatch h⟩

/-- A session is idle again if only the cell of one actor has changed, and that cell is free
    with a front of the table or none. -/
theorem Idle.of_cell (h : Idle table limits s) {t : Session} {actor : ActorId}
    (hsource : t.source = s.source) (hlimits : t.limits = s.limits)
    (hholder : (t.state.cell actor).holder = none) (hqueue : (t.state.cell actor).queue = [])
    (hfront : ∀ shared, (t.state.cell actor).front = some shared →
      ∃ grip, table.get? actor = some grip ∧ shared.value = Front.ofGrip limits grip)
    (hother : ∀ a, a ≠ actor → t.state.cell a = s.state.cell a) : Idle table limits t where
  source_eq := hsource.trans h.source_eq
  limits_eq := hlimits.trans h.limits_eq
  holder := fun a => by
    by_cases ha : a = actor
    · rw [ha]; exact hholder
    · rw [hother a ha]; exact h.holder a
  queue := fun a => by
    by_cases ha : a = actor
    · rw [ha]; exact hqueue
    · rw [hother a ha]; exact h.queue a
  fronts := fun a shared hshared => by
    by_cases ha : a = actor
    · subst ha; exact hfront shared hshared
    · rw [hother a ha] at hshared; exact h.fronts a shared hshared

/-- In an idle session a cell holds nothing but its front. -/
theorem Idle.cell_eq (h : Idle table limits s) (actor : ActorId) :
    s.state.cell actor = ⟨(s.state.cell actor).front, none, []⟩ := by
  have hholder := h.holder actor
  have hqueue := h.queue actor
  cases hcell : s.state.cell actor with
  | mk front holder queue =>
    rw [hcell] at hholder hqueue
    cases hholder
    cases hqueue
    rfl

/-- The actors of cached fronts are described. -/
theorem Idle.isSome_get? (h : Idle table limits s) {actor : ActorId} (hcached : s.caches actor) :
    (table.get? actor).isSome := by
  obtain ⟨shared, hshared⟩ := Option.isSome_iff_exists.1 hcached
  obtain ⟨grip, hgrip, -⟩ := h.fronts actor shared hshared
  simp [hgrip]

/-! ### One call -/

/-- Says that an outcome is the front of the grip that was found for a reference, or the
    fault that none was. -/
def Settles (limits : Limits) (reference : Reference) (found : Option Grip)
    (outcome : Except Fault (Shared Front)) : Prop :=
  match found with
  | some grip => ∃ shared, outcome = .ok shared ∧ shared.value = Front.ofGrip limits grip
  | none => outcome = .error (.unresolvable reference)

/-- A front is that of the grip that was found. -/
theorem Settles.exists_grip {found : Option Grip} {shared : Shared Front}
    (h : Settles limits reference found (.ok shared)) :
    ∃ grip, found = some grip ∧ shared.value = Front.ofGrip limits grip := by
  unfold Settles at h
  split at h
  · next grip =>
    obtain ⟨made, hmade, hvalue⟩ := h
    cases hmade
    exact ⟨grip, rfl, hvalue⟩
  · cases h

/-- A fault is that nothing was found. -/
theorem Settles.eq_none {found : Option Grip} {fault : Fault}
    (h : Settles limits reference found (.error fault)) :
    found = none ∧ fault = .unresolvable reference := by
  unfold Settles at h
  split at h
  · obtain ⟨made, hmade, -⟩ := h
    cases hmade
  · exact ⟨rfl, Except.error.inj h⟩

/-- The answer of a table is judged by what the table describes the reference with. -/
theorem settles_of_judge {n : Nat} {outcome : Except Fault (Shared Front)}
    (h : outcome.map Shared.value =
      (((Source.ofTable table).answer reference.actor n).reply.judge reference).map
        (Front.ofGrip limits)) :
    Settles limits reference (TableResolver.describe? table reference) outcome := by
  cases hget : table.get? reference.actor with
  | none =>
    rw [TableResolver.describe?_eq_none hget]
    simp only [Source.ofTable, hget, Reply.judge, Except.map] at h
    cases outcome with
    | error fault => exact congrArg Except.error (Except.error.inj h)
    | ok shared => cases h
  | some grip =>
    by_cases htype : grip.type = reference.type
    · rw [TableResolver.describe?_eq_some_iff.2 ⟨hget, htype⟩]
      simp only [Source.ofTable, hget, Reply.judge, if_pos htype, Except.map] at h
      cases outcome with
      | error fault => cases h
      | ok shared => exact ⟨shared, rfl, Except.ok.inj h⟩
    · rw [TableResolver.describe?_mistyped hget htype]
      simp only [Source.ofTable, hget, Reply.judge, if_neg htype, Except.map] at h
      cases outcome with
      | error fault => exact congrArg Except.error (Except.error.inj h)
      | ok shared => cases h

/-- What a call to an idle session over a table comes to: it ends at once, its front if it
    has one is cached, and no other cell has changed. -/
structure Ends (table : ObjectTable) (limits : Limits) (reference : Reference) (s : Session)
    (outcome : Except Fault (Shared Front)) (t : Session) : Prop where
  settles : Settles limits reference (table.grip? s.caches reference) outcome
  calls : t.state.calls = s.state.calls ++ [⟨reference, .finished outcome⟩]
  idle : Idle table limits t
  front : outcome.toOption.isSome → t.caches reference.actor
  cells : ∀ actor, actor ≠ reference.actor → t.state.cell actor = s.state.cell actor

namespace Session

/-- A call to an actor whose front is cached ends with it. -/
theorem ends_of_cached (h : Idle table limits s) {shared : Shared Front}
    (hfront : (s.state.cell reference.actor).front = some shared) :
    Ends table limits reference s (.ok shared) (s.start reference) := by
  obtain ⟨grip, hgrip, hvalue⟩ := h.fronts reference.actor shared hfront
  have hcell := h.cell_eq reference.actor
  rw [hfront] at hcell
  have heffect := effect_call_found hcell
  have hcached : s.caches reference.actor = true := by simp [caches, hfront]
  rw [start_of_cached hcell]
  constructor
  case settles =>
    rw [ObjectTable.grip?, if_pos hcached, hgrip]
    exact ⟨shared, rfl, hvalue⟩
  case calls => exact heffect.calls_of_new
  case idle =>
    refine @Idle.of_cell _ _ _ h _ reference.actor rfl rfl ?_ ?_ ?_ heffect.cells
    · exact congrArg Cell.holder heffect.cell
    · exact congrArg Cell.queue heffect.cell
    · intro found hfound
      rw [heffect.cell] at hfound
      exact h.fronts reference.actor found (hfront.trans hfound)
  case front =>
    intro _
    rw [caches, heffect.cell]
    rfl
  case cells => exact heffect.cells

/-- A call to an actor whose front is not cached ends with the reply of the table. -/
theorem ends_of_free (h : Idle table limits s)
    (hfront : (s.state.cell reference.actor).front = none) :
    ∃ outcome, Ends table limits reference s outcome (s.start reference) := by
  have hcell := h.cell_eq reference.actor
  rw [hfront] at hcell
  have hnew := effect_call_first hcell
  let reply := ((Source.ofTable table).answer reference.actor 0).reply
  obtain ⟨t, outcome, hstep, hjudge, hreplied⟩ :=
    exists_reply limits hnew.getElem?_self reply
  have hanswer : s.source.answer reference.actor (s.state.fetchCount reference.actor) =
      ⟨0, reply⟩ := by
    rw [h.source_eq]
    rfl
  rw [← h.limits_eq] at hstep
  obtain ⟨answers, hstart⟩ := exists_start_of_ready hcell hanswer hstep
  have hothers : ∀ actor, actor ≠ reference.actor → t.cell actor = s.state.cell actor :=
    fun actor ha => (hreplied.cells actor ha).trans (hnew.cells actor ha)
  have hsettles := settles_of_judge hjudge
  rw [hnew.cell] at hreplied
  refine ⟨outcome, ?_⟩
  rw [hstart]
  constructor
  case settles => simpa [ObjectTable.grip?, caches, hfront] using hsettles
  case calls => exact hreplied.calls_of_last hnew.calls_of_new
  case idle =>
    refine @Idle.of_cell _ _ _ h _ reference.actor rfl rfl ?_ ?_ ?_ hothers
    · exact congrArg Cell.holder hreplied.cell
    · exact congrArg Cell.queue hreplied.cell
    · intro found hfound
      simp only [hreplied.cell, Option.or_none] at hfound
      cases outcome with
      | error fault => cases hfound
      | ok shared =>
        cases hfound
        obtain ⟨grip, hgrip, hvalue⟩ := hsettles.exists_grip
        exact ⟨grip, (TableResolver.describe?_eq_some_iff.1 hgrip).1, hvalue⟩
  case front =>
    intro hok
    simpa only [caches, hreplied.cell, Option.or_none] using hok
  case cells => exact hothers

/-- A call to an idle session ends at once and leaves it idle. -/
theorem start_spec (h : Idle table limits s) (reference : Reference) :
    ∃ outcome, Ends table limits reference s outcome (s.start reference) := by
  cases hfront : (s.state.cell reference.actor).front with
  | some shared => exact ⟨.ok shared, ends_of_cached h hfront⟩
  | none => exact ends_of_free h hfront

end Session

end SingleFlight

end Console
