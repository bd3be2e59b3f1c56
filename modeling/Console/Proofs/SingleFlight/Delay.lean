import Console.Proofs.Message.Parameters
import Console.Proofs.SingleFlight.Export
import Console.Proofs.Views

/-! # Delayed answers

    A source that answers as an object table does, but late, makes of a record what the
    table makes of it: delays decide in which order the calls for its actors end, and, if
    several are refused, which one ends the join, but nothing else.

    In the first round every call finds its cell free and fetches, because each is for
    another actor. From then on it is known of each call within how many further rounds it
    ends as the table answers (`Due`). A round brings all of them nearer by one
    (`Underway.pollAll`), so that they have all ended, unless the join has, when the rounds
    that the session grants are over (`Underway.rounds`).
-/

namespace Console.SingleFlight

variable {table : ObjectTable} {limits : Limits} {s t u : Session} {id : Nat}
  {reference : Reference} {n : Nat} {join : Session.Join} {references : List Reference}

/-! ### Late sources -/

/-- Says that a source replies to every fetch as an object table does, after any delay. -/
def Source.Delays (source : Source) (table : ObjectTable) : Prop :=
  ∀ actor n, (source.answer actor n).reply = ((Source.ofTable table).answer actor n).reply

/-- Says that a call ends as the table answers within `n` further rounds, or has ended so. -/
inductive Due (table : ObjectTable) (limits : Limits) (s : Session) (id : Nat)
    (reference : Reference) (n : Nat) : Prop where
  | ended {outcome : Except Fault (Shared Front)} :
      s.state.calls[id]? = some ⟨reference, .finished outcome⟩ →
      Settles limits reference (TableResolver.describe? table reference) outcome →
      Due table limits s id reference n
  | awaited {delay : Nat} {reply : Reply} :
      s.state.calls[id]? = some ⟨reference, .fetching⟩ → s.answers.get? id = some ⟨delay, reply⟩ →
      reply = ((Source.ofTable table).answer reference.actor 0).reply → delay < n →
      Due table limits s id reference n

theorem Due.mono {m : Nat} (h : Due table limits s id reference n) (hle : n ≤ m) :
    Due table limits s id reference m := by
  cases h with
  | ended hcall hsettles => exact .ended hcall hsettles
  | awaited hcall hanswer hreply hdelay => exact .awaited hcall hanswer hreply (by omega)

/-- A call that has no further round to wait for has ended. -/
theorem Due.exists_outcome (h : Due table limits s id reference 0) :
    ∃ outcome, s.state.calls[id]? = some ⟨reference, .finished outcome⟩ ∧
      Settles limits reference (TableResolver.describe? table reference) outcome := by
  cases h with
  | ended hcall hsettles => exact ⟨_, hcall, hsettles⟩
  | awaited _ _ _ hdelay => omega

/-! ### One call in one round -/

/-- Says that `t` is `s` after call `id` has gone on: other calls and the answers to them, and
    the cells and fetches of other actors, are as they were. -/
structure Touches (s : Session) (id : Nat) (reference : Reference) (t : Session) : Prop where
  source_eq : t.source = s.source
  limits_eq : t.limits = s.limits
  calls : ∀ other, other ≠ id → t.state.calls[other]? = s.state.calls[other]?
  answers : ∀ other, other ≠ id → t.answers.get? other = s.answers.get? other
  cells : ∀ actor, actor ≠ reference.actor → t.state.cell actor = s.state.cell actor
  fetches : ∀ actor, actor ≠ reference.actor → t.state.fetchCount actor = s.state.fetchCount actor

theorem Touches.refl (s : Session) (id : Nat) (reference : Reference) : Touches s id reference s :=
  ⟨rfl, rfl, fun _ _ => rfl, fun _ _ => rfl, fun _ _ => rfl, fun _ _ => rfl⟩

theorem Touches.trans (h : Touches s id reference t) (h' : Touches t id reference u) :
    Touches s id reference u where
  source_eq := h'.source_eq.trans h.source_eq
  limits_eq := h'.limits_eq.trans h.limits_eq
  calls := fun other hne => (h'.calls other hne).trans (h.calls other hne)
  answers := fun other hne => (h'.answers other hne).trans (h.answers other hne)
  cells := fun actor hne => (h'.cells actor hne).trans (h.cells actor hne)
  fetches := fun actor hne => (h'.fetches actor hne).trans (h.fetches actor hne)

/-- A move of one call, with whatever answer is noted for it. -/
theorem Effect.touches {before : Option Stage} {after : Stage} {cell : Cell} {state : State}
    {answers : OrderedMap Nat Answer}
    (h : Effect s.state id reference before after cell state)
    (hanswers : ∀ other, other ≠ id → answers.get? other = s.answers.get? other) :
    Touches s id reference { s with state := state, answers := answers } where
  source_eq := rfl
  limits_eq := rfl
  calls := fun _ hne => h.getElem?_ne hne
  answers := hanswers
  cells := h.cells
  fetches := fun actor hne => by
    unfold State.fetchCount
    rw [h.fetches]
    cases after.isFetching with
    | true => simp [Ne.symm hne]
    | false => simp

theorem Due.of_touches {other : Nat} {asked : Reference} (h : Due table limits s other reference n)
    (htouches : Touches s id asked t) (hne : other ≠ id) : Due table limits t other reference n := by
  cases h with
  | ended hcall hsettles => exact .ended ((htouches.calls other hne).trans hcall) hsettles
  | awaited hcall hanswer hreply hdelay =>
    exact .awaited ((htouches.calls other hne).trans hcall)
      ((htouches.answers other hne).trans hanswer) hreply hdelay

namespace Session

/-- A call that awaits its answer ends with it, or its delay is one less. -/
theorem await_spec {delay : Nat} {reply : Reply} (hlimits : s.limits = limits)
    (hcall : s.state.calls[id]? = some ⟨reference, .fetching⟩)
    (hanswer : s.answers.get? id = some ⟨delay, reply⟩)
    (hreply : reply = ((Source.ofTable table).answer reference.actor 0).reply)
    (hdelay : delay < n + 1) :
    Due table limits (s.await id) id reference n ∧ Touches s id reference (s.await id) ∧
      (s.await id).state.calls.length = s.state.calls.length := by
  cases delay with
  | zero =>
    -- the reply is judged as the table's would be
    obtain ⟨state, outcome, hstep, hjudge, heffect⟩ := exists_reply s.limits hcall reply
    rw [await_ready hanswer, state_move hstep]
    rw [hlimits, hreply] at hjudge
    exact ⟨.ended heffect.getElem?_self (settles_of_judge hjudge),
      heffect.touches fun _ _ => rfl, heffect.length_calls_of_old⟩
  | succ delay =>
    rw [await_delayed hanswer]
    refine ⟨.awaited hcall (OrderedMap.get?_insert_self _ _ _) hreply (by omega), ?_, rfl⟩
    exact ⟨rfl, rfl, fun _ _ => rfl, fun _ hne => OrderedMap.get?_insert_ne _ _ hne,
      fun _ _ => rfl, fun _ _ => rfl⟩

/-- A round brings a call nearer to its end by one. -/
theorem poll_spec (hlimits : s.limits = limits) (h : Due table limits s id reference (n + 1)) :
    Due table limits (s.poll id) id reference n ∧ Touches s id reference (s.poll id) ∧
      (s.poll id).state.calls.length = s.state.calls.length := by
  cases h with
  | ended hcall hsettles =>
    have hpoll : s.poll id = s := by simp only [poll, hcall]
    rw [hpoll]
    exact ⟨.ended hcall hsettles, .refl s id reference, rfl⟩
  | awaited hcall hanswer hreply hdelay =>
    have hpoll : s.poll id = s.await id := by simp only [poll, hcall]
    rw [hpoll]
    exact await_spec hlimits hcall hanswer hreply hdelay

/-- A new call to an actor that has never been called fetches, and awaits the first answer. -/
theorem start_delayed (hlimits : s.limits = limits) (hsource : s.source.Delays table)
    (hcell : s.state.cell reference.actor = {}) (hfetches : s.state.fetchCount reference.actor = 0)
    (hdelay : (s.source.answer reference.actor 0).delay < n + 1) :
    Due table limits (s.start reference) s.state.calls.length reference n ∧
      Touches s s.state.calls.length reference (s.start reference) ∧
      (s.start reference).state.calls.length = s.state.calls.length + 1 := by
  have heffect := effect_call_first hcell
  rw [start_of_free hcell, hfetches]
  have hlength : (s.state.call reference).calls.length = s.state.calls.length + 1 := by
    rw [heffect.calls_of_new, List.length_append, List.length_singleton]
  generalize hanswers : s.answers.insert s.state.calls.length (s.source.answer reference.actor 0) =
    answers
  have hanswer : answers.get? s.state.calls.length = some (s.source.answer reference.actor 0) := by
    rw [← hanswers]
    exact OrderedMap.get?_insert_self _ _ _
  have hasked : Touches s s.state.calls.length reference
      { s with state := s.state.call reference, answers := answers } := by
    refine heffect.touches fun other hne => ?_
    rw [← hanswers]
    exact OrderedMap.get?_insert_ne _ _ hne
  obtain ⟨hdue, htouches, hsame⟩ :=
    @await_spec table limits { s with state := s.state.call reference, answers := answers } _
      reference n _ _ hlimits heffect.getElem?_self hanswer (hsource reference.actor 0) hdelay
  exact ⟨hdue, hasked.trans htouches, hsame.trans hlength⟩

end Session

/-! ### All calls in all rounds -/

/-- Says that calls for references have been started, and that each has ended, or ends within
    `n` further rounds, or within one more if its turn in this round is yet to come. -/
structure Underway (table : ObjectTable) (limits : Limits) (started : List Reference)
    (turn : List Nat) (n : Nat) (s : Session) : Prop where
  delays : s.source.Delays table
  limits_eq : s.limits = limits
  length_eq : s.state.calls.length = started.length
  due : ∀ id reference, started[id]? = some reference →
    Due table limits s id reference (if id ∈ turn then n + 1 else n)

/-- A session whose next call is its first. -/
theorem underway_start {source : Source} (hdelays : source.Delays table) (limits : Limits) (n : Nat) :
    Underway table limits [] [] n { limits := limits, source := source } where
  delays := hdelays
  limits_eq := rfl
  length_eq := rfl
  due := fun _ _ h => nomatch h

namespace Underway

variable {started : List Reference} {turn : List Nat}

/-- What is left of a round can wait for the next one. -/
theorem postpone (h : Underway table limits started turn n s) :
    Underway table limits started [] (n + 1) s where
  delays := h.delays
  limits_eq := h.limits_eq
  length_eq := h.length_eq
  due := fun id reference hget => (h.due id reference hget).mono (by simp; split <;> omega)

/-- A round in which every call has a turn. -/
theorem round (h : Underway table limits started [] (n + 1) s)
    (hturn : ∀ id, id < started.length → id ∈ turn) : Underway table limits started turn n s where
  delays := h.delays
  limits_eq := h.limits_eq
  length_eq := h.length_eq
  due := fun id reference hget => by
    have hlt : id < started.length := (List.getElem?_eq_some_iff.1 hget).1
    rw [if_pos (hturn id hlt)]
    exact h.due id reference hget

/-- The turn of one call. -/
theorem poll {rest : List Nat} (h : Underway table limits started (id :: rest) n s)
    (hlt : id < started.length) : Underway table limits started rest n (s.poll id) := by
  have hget : started[id]? = some started[id] := List.getElem?_eq_getElem hlt
  have hdue := h.due id started[id] hget
  rw [if_pos List.mem_cons_self] at hdue
  obtain ⟨hdue', htouches, hlength⟩ := Session.poll_spec h.limits_eq hdue
  refine ⟨htouches.source_eq ▸ h.delays, htouches.limits_eq.trans h.limits_eq,
    hlength.trans h.length_eq, ?_⟩
  intro other reference hother
  by_cases hne : other = id
  · subst hne
    rw [hget] at hother
    cases hother
    exact hdue'.mono (by split <;> omega)
  · -- the others have their turn still, or have had it
    refine ((h.due other reference hother).of_touches htouches hne).mono ?_
    simp [hne]

/-- After a round all calls are nearer to their ends by one, unless the join has failed. -/
theorem pollAll {ids : List Nat} (h : Underway table limits started turn n s)
    (hturn : ∀ id ∈ turn, id < started.length) :
    (∃ m, Underway table limits started [] m (s.pollAll join ids turn) ∧
      ((s.pollAll join ids turn).failure? ids join).isSome) ∨
    Underway table limits started [] n (s.pollAll join ids turn) := by
  induction turn generalizing s with
  | nil => exact .inr h
  | cons id rest ih =>
    have hpolled := h.poll (hturn id List.mem_cons_self)
    rw [Session.pollAll]
    by_cases hfailed : ((s.poll id).failure? ids join).isSome
    · rw [if_pos hfailed]
      exact .inl ⟨n + 1, hpolled.postpone, hfailed⟩
    · rw [if_neg hfailed]
      exact ih hpolled fun other hother => hturn other (List.mem_cons_of_mem _ hother)

end Underway

namespace Session

/-- A join that has failed has no further rounds. -/
theorem rounds_of_failed {ids : List Nat} (h : (s.failure? ids join).isSome) (n : Nat) :
    s.rounds join ids n = s := by
  cases n with
  | zero => rfl
  | succ n => rw [rounds, h, Bool.or_true, if_pos rfl]

end Session

/-- When the rounds in which all calls end are over, they have ended, or the join has
    failed. -/
theorem Underway.rounds {started : List Reference} {ids : List Nat}
    (h : Underway table limits started [] n s) (hids : ∀ id, id ∈ ids ↔ id < started.length) :
    (∃ m, Underway table limits started [] m (s.rounds join ids n)) ∧
      (((s.rounds join ids n).failure? ids join).isSome ∨
        (s.rounds join ids n).settled ids = true) := by
  induction n generalizing s with
  | zero =>
    refine ⟨⟨0, h⟩, .inr ?_⟩
    rw [Session.rounds, Session.settled, List.all_eq_true]
    intro id hid
    have hget := List.getElem?_eq_getElem ((hids id).1 hid)
    obtain ⟨outcome, hcall, -⟩ := (h.due id _ hget).exists_outcome
    rw [State.outcome?_eq_some_iff.2 ⟨_, hcall⟩]
    rfl
  | succ n ih =>
    rw [Session.rounds]
    by_cases hended : s.settled ids || (s.failure? ids join).isSome
    · rw [if_pos hended]
      rw [Bool.or_eq_true] at hended
      exact ⟨⟨n + 1, h⟩, hended.symm⟩
    · rw [if_neg hended]
      have hround := h.round fun id hlt => (hids id).2 hlt
      have hturn : ∀ id ∈ ids, id < started.length := fun id hid => (hids id).1 hid
      rcases hround.pollAll hturn with ⟨m, hpolled, hfailed⟩ | hpolled
      · rw [Session.rounds_of_failed hfailed]
        exact ⟨⟨m, hpolled⟩, .inl hfailed⟩
      · exact ih hpolled

/-! ### The first round -/

/-- Says that no actor but those of some references has been called. -/
def Session.Uncalled (s : Session) (started : List Reference) : Prop :=
  ∀ actor, (∀ reference ∈ started, reference.actor ≠ actor) →
    s.state.cell actor = {} ∧ s.state.fetchCount actor = 0

namespace Underway

variable {started : List Reference}

/-- A call to one more actor. -/
theorem start (h : Underway table limits started [] n s) (hnew : s.Uncalled started)
    (hother : ∀ earlier ∈ started, earlier.actor ≠ reference.actor)
    (hdelay : (s.source.answer reference.actor 0).delay < n + 1) :
    Underway table limits (started ++ [reference]) [] n (s.start reference) ∧
      (s.start reference).Uncalled (started ++ [reference]) ∧
      (s.start reference).source = s.source := by
  obtain ⟨hcell, hfetches⟩ := hnew reference.actor hother
  obtain ⟨hdue, htouches, hlength⟩ :=
    Session.start_delayed h.limits_eq h.delays hcell hfetches hdelay
  refine ⟨⟨htouches.source_eq ▸ h.delays, htouches.limits_eq.trans h.limits_eq, ?_, ?_⟩, ?_,
    htouches.source_eq⟩
  · rw [hlength, h.length_eq, List.length_append, List.length_singleton]
  · intro id asked hget
    rw [if_neg List.not_mem_nil]
    by_cases hid : id < started.length
    · rw [List.getElem?_append_left hid] at hget
      have hbefore := h.due id asked hget
      rw [if_neg List.not_mem_nil] at hbefore
      exact hbefore.of_touches htouches (by rw [h.length_eq]; omega)
    · -- the new call comes last
      have hlt := (List.getElem?_eq_some_iff.1 hget).1
      rw [List.length_append, List.length_singleton] at hlt
      obtain rfl : id = started.length := by omega
      rw [List.getElem?_concat_length] at hget
      cases hget
      exact h.length_eq ▸ hdue
  · intro actor hactor
    obtain ⟨hcell, hfetches⟩ := hnew actor fun earlier hmem =>
      hactor earlier (List.mem_append_left _ hmem)
    have hne := hactor reference (List.mem_append_right _ List.mem_cons_self)
    exact ⟨(htouches.cells actor hne.symm).trans hcell, (htouches.fetches actor hne.symm).trans hfetches⟩

/-- Calls for actors that have not been called start one after the other, all of them or up
    to a failure of their join. -/
theorem startAll (h : Underway table limits started [] n s) (hnew : s.Uncalled started)
    (hdistinct : references.Pairwise (·.actor ≠ ·.actor))
    (hothers : ∀ reference ∈ references, ∀ earlier ∈ started, earlier.actor ≠ reference.actor)
    (hdelays : ∀ reference ∈ references, (s.source.answer reference.actor 0).delay < n + 1) :
    ∃ more, more <+: references ∧
      Underway table limits (started ++ more) [] n (s.startAll join 0 references) ∧
      (more = references ∨ ((s.startAll join 0 references).failure?
        (List.range' 0 (started ++ more).length) join).isSome) := by
  induction references generalizing s started with
  | nil => exact ⟨[], List.prefix_refl _, by rw [List.append_nil]; exact h, .inl rfl⟩
  | cons reference rest ih =>
    obtain ⟨hne, hrest⟩ := List.pairwise_cons.1 hdistinct
    obtain ⟨hstarted, hnew', hsource⟩ :=
      h.start hnew (hothers reference List.mem_cons_self) (hdelays reference List.mem_cons_self)
    rw [Session.startAll]
    have hlength := hstarted.length_eq
    by_cases hfailed : ((s.start reference).failure?
        (List.range' 0 ((s.start reference).state.calls.length - 0)) join).isSome
    · rw [if_pos hfailed]
      rw [hlength, Nat.sub_zero] at hfailed
      exact ⟨[reference], ⟨rest, rfl⟩, hstarted, .inr hfailed⟩
    · rw [if_neg hfailed]
      obtain ⟨more, hprefix, hunderway, hended⟩ := ih hstarted hnew' hrest
        (by
          intro later hlater earlier hearlier
          rcases List.mem_append.1 hearlier with hearlier | hearlier
          · exact hothers later (List.mem_cons_of_mem _ hlater) earlier hearlier
          · rw [List.mem_singleton.1 hearlier]
            exact hne later hlater)
        (by
          intro later hlater
          rw [hsource]
          exact hdelays later (List.mem_cons_of_mem _ hlater))
      rw [List.append_assoc, List.singleton_append] at hunderway hended
      refine ⟨reference :: more, (List.prefix_cons_inj _).2 hprefix, hunderway, ?_⟩
      rcases hended with rfl | hfailed'
      · exact .inl rfl
      · exact .inr hfailed'

end Underway

section
variable {α : Type} {step : Nat → α → Nat}

/-- A total that never falls is not less than at the start. -/
theorem le_foldl (hstep : ∀ total x, total ≤ step total x) (xs : List α) (total : Nat) :
    total ≤ xs.foldl step total := by
  induction xs generalizing total with
  | nil => exact Nat.le_refl total
  | cons x rest ih => exact Nat.le_trans (hstep total x) (ih (step total x))

/-- A total that never falls exceeds what one step makes it exceed. -/
theorem lt_foldl (hstep : ∀ total x, total ≤ step total x) {xs : List α} {x : α} (hmem : x ∈ xs)
    {k : Nat} (hx : ∀ total, k < step total x) (total : Nat) : k < xs.foldl step total := by
  induction xs generalizing total with
  | nil => cases hmem
  | cons y rest ih =>
    rcases List.mem_cons.1 hmem with rfl | hmem
    · exact Nat.lt_of_lt_of_le (hx total) (le_foldl hstep rest (step total x))
    · exact ih hmem (step total y)

end

/-- A session grants more rounds than the first answer for any of the references is
    delayed. -/
theorem delay_lt_patience (hfetches : s.state.fetchCount reference.actor = 0)
    (hmem : reference ∈ references) :
    (s.source.answer reference.actor 0).delay < s.patience references := by
  have hpositive : 0 < references.length := List.length_pos_of_mem hmem
  -- the rounds for one fetch are one more than its delay
  have hfetch : ∀ (other : Reference) (total n : Nat),
      total ≤ total + (s.source.answer other.actor (s.state.fetchCount other.actor + n)).delay + 1 :=
    fun _ _ _ => by omega
  refine lt_foldl (fun total other => le_foldl (hfetch other) _ total) hmem (fun total => ?_) 0
  refine lt_foldl (hfetch reference) (List.mem_range.2 hpositive) (fun total => ?_) total
  have hfirst : s.state.fetchCount reference.actor + 0 = 0 := hfetches
  rw [hfirst]
  omega

/-! ### The end of the join -/

namespace Session

/-- What fails a join is the fault of one of its calls. -/
theorem exists_outcome_of_failure? {ids : List Nat} {fault : Fault}
    (h : s.failure? ids join = some fault) :
    ∃ id ∈ ids, s.state.outcome? id = some (.error fault) := by
  cases join with
  | never => cases h
  | firstInTime =>
    obtain ⟨id, hid, hfound⟩ := List.exists_of_findSome?_eq_some h
    refine ⟨id, hid, ?_⟩
    split at hfound
    · next outcome hcause =>
      cases hfound
      exact hcause
    · cases hfound
  | firstInOrder =>
    induction ids with
    | nil => cases h
    | cons id rest ih =>
      simp only [failure?, leadingFailure?] at h
      split at h
      · obtain ⟨found, hfound, hcause⟩ := ih h
        exact ⟨found, List.mem_cons_of_mem _ hfound, hcause⟩
      · next outcome hcause =>
        cases h
        exact ⟨id, List.mem_cons_self, hcause⟩
      · cases h

/-- If the calls of a join have ended and it has not failed, they have all succeeded. -/
theorem exists_front_of_settled {ids : List Nat} (hjoin : join ≠ .never)
    (hsettled : s.settled ids = true) (h : s.failure? ids join = none) :
    ∀ id ∈ ids, ∃ shared, s.state.outcome? id = some (.ok shared) := by
  induction ids with
  | nil => exact fun id hid => nomatch hid
  | cons id rest ih =>
    rw [settled, List.all_cons, Bool.and_eq_true] at hsettled
    obtain ⟨outcome, houtcome⟩ := Option.isSome_iff_exists.1 hsettled.1
    cases outcome with
    | error fault =>
      -- the first call would have failed the join
      cases join with
      | never => exact absurd rfl hjoin
      | firstInTime => simp only [failure?, anyFailure?, List.findSome?_cons, houtcome] at h; cases h
      | firstInOrder => simp only [failure?, leadingFailure?, houtcome] at h; cases h
    | ok shared =>
      have hrest : s.failure? rest join = none := by
        cases join with
        | never => exact absurd rfl hjoin
        | firstInTime => simpa only [failure?, anyFailure?, List.findSome?_cons, houtcome] using h
        | firstInOrder => simpa only [failure?, leadingFailure?, houtcome] using h
      intro other hother
      rcases List.mem_cons.1 hother with rfl | hother
      · exact ⟨shared, houtcome⟩
      · exact ih hsettled.2 hrest other hother

/-- Dropping a call changes no outcome. -/
theorem outcome?_move_drop (s : Session) (id other : Nat) :
    (s.move (.drop id)).state.outcome? other = s.state.outcome? other := by
  cases hdrop : s.state.step? s.limits (.drop id) with
  | none => simp [move, hdrop]
  | some state =>
    obtain ⟨dropped, reference, before, after, cell, hshift, heffect⟩ := shifts_of_step? hdrop
    rw [state_move hdrop]
    show state.outcome? other = s.state.outcome? other
    rw [State.outcome?_eq, State.outcome?_eq]
    by_cases hother : other = dropped
    · -- only a call in flight is dropped, and it has no outcome before or after
      subst hother
      rw [heffect.getElem?_self, heffect.before]
      cases hshift with
      | left | abandoned => rfl
    · rw [heffect.getElem?_ne hother]

theorem outcome?_dropAll (s : Session) (ids : List Nat) :
    (s.dropAll ids).state.outcome? = s.state.outcome? := by
  induction ids generalizing s with
  | nil => rfl
  | cons id rest ih =>
    have hrest : (s.dropAll (id :: rest)).state.outcome? = (s.move (.drop id)).state.outcome? :=
      ih (s.move (.drop id))
    rw [hrest]
    funext other
    exact outcome?_move_drop s id other

/-- Whether a join has failed is told by the outcomes of its calls. -/
theorem failure?_congr (h : t.state.outcome? = s.state.outcome?) (ids : List Nat) :
    t.failure? ids join = s.failure? ids join := by
  have hleading : t.leadingFailure? ids = s.leadingFailure? ids := by
    induction ids with
    | nil => rfl
    | cons id rest ih => simp only [leadingFailure?, h, ih]
  cases join with
  | never => rfl
  | firstInTime => simp only [failure?, anyFailure?, h]
  | firstInOrder => exact hleading

end Session

/-- Calls that have all ended with the fronts of a table's grips have been answered. -/
theorem exists_answered {calls : List Call} (hlength : calls.length = references.length)
    (h : ∀ (id : Nat) (reference : Reference), references[id]? = some reference →
      ∃ (grip : Grip) (shared : Shared Front), calls[id]? = some ⟨reference, .finished (.ok shared)⟩ ∧
        TableResolver.describe? table reference = some grip ∧ shared.value = Front.ofGrip limits grip) :
    ∃ fronts, Answered limits (TableResolver.describe? table) references fronts none ∧
      calls.map Call.outcome? = outcomes fronts none := by
  induction references generalizing calls with
  | nil =>
    obtain rfl := List.eq_nil_of_length_eq_zero hlength
    exact ⟨[], .nil, rfl⟩
  | cons reference rest ih =>
    cases calls with
    | nil => cases hlength
    | cons call calls =>
      obtain ⟨grip, shared, hcall, hgrip, hvalue⟩ := h 0 reference rfl
      obtain ⟨fronts, hanswered, hcalls⟩ := ih (Nat.succ.inj hlength) fun id later hget =>
        h (id + 1) later hget
      cases hcall
      refine ⟨shared :: fronts, .front hgrip hvalue hanswered, ?_⟩
      rw [List.map_cons, hcalls]
      rfl

/-- A call that has ended has ended as the table answers. -/
theorem Due.settles {outcome : Except Fault (Shared Front)}
    (h : Due table limits s id reference n) (houtcome : s.state.outcome? id = some outcome) :
    s.state.calls[id]? = some ⟨reference, .finished outcome⟩ ∧
      Settles limits reference (TableResolver.describe? table reference) outcome := by
  obtain ⟨found, hcall⟩ := State.outcome?_eq_some_iff.1 houtcome
  cases h with
  | awaited hfetching =>
    rw [hcall] at hfetching
    cases hfetching
  | ended hended hsettles =>
    rw [hcall] at hended
    cases hended
    exact ⟨hcall, hsettles⟩

/-- A call that has failed was for a reference that the table does not describe. -/
theorem Underway.refused {started : List Reference} {fault : Fault}
    (h : Underway table limits started [] n s) (hid : id < started.length)
    (hfailed : s.state.outcome? id = some (.error fault)) :
    ∃ reference ∈ started, TableResolver.describe? table reference = none ∧
      fault = .unresolvable reference := by
  have hdue := h.due id _ (List.getElem?_eq_getElem hid)
  exact ⟨started[id], List.getElem_mem hid, (hdue.settles hfailed).2.eq_none⟩

/-- A call that has succeeded has the front of the grip that the table describes it with. -/
theorem Underway.served {started : List Reference} {shared : Shared Front}
    (h : Underway table limits started [] n s) (hget : started[id]? = some reference)
    (hok : s.state.outcome? id = some (.ok shared)) :
    ∃ grip, s.state.calls[id]? = some ⟨reference, .finished (.ok shared)⟩ ∧
      TableResolver.describe? table reference = some grip ∧ shared.value = Front.ofGrip limits grip := by
  obtain ⟨hcall, hsettles⟩ := (h.due id reference hget).settles hok
  obtain ⟨grip, hgrip, hvalue⟩ := hsettles.exists_grip
  exact ⟨grip, hcall, hgrip, hvalue⟩

/-- The rounds of joined calls are over when the join has failed, or all references have been
    called and their calls have ended. -/
theorem exists_rounds_delayed {source : Source} (hdelays : source.Delays table) (limits : Limits)
    (join : Session.Join) (hdistinct : references.Pairwise (·.actor ≠ ·.actor)) :
    ∃ started m u, started <+: references ∧ Underway table limits started [] m u ∧
      ({ limits := limits, source := source } : Session).joined join references =
        (List.range' 0 started.length, u.dropAll (List.range' 0 started.length)) ∧
      ((u.failure? (List.range' 0 started.length) join).isSome ∨
        started = references ∧ u.settled (List.range' 0 started.length) = true) := by
  let s : Session := { limits := limits, source := source }
  have hpatience : ∀ reference ∈ references,
      (s.source.answer reference.actor 0).delay < s.patience references + 1 :=
    fun reference hmem => Nat.lt_succ_of_lt (delay_lt_patience rfl hmem)
  obtain ⟨started, hprefix, hunderway, hended⟩ :=
    @Underway.startAll table limits s _ join references []
      (underway_start hdelays limits (s.patience references)) (fun _ _ => ⟨rfl, rfl⟩) hdistinct
      (fun _ _ _ h => nomatch h) hpatience
  rw [List.nil_append] at hunderway hended
  have hids : ∀ id, id ∈ List.range' 0 started.length ↔ id < started.length := by
    intro id
    simp
  have hjoined : s.joined join references = (List.range' 0 started.length,
      ((s.startAll join 0 references).rounds join (List.range' 0 started.length)
        (s.patience references)).dropAll (List.range' 0 started.length)) := by
    have hfirst : s.state.calls.length = 0 := rfl
    simp only [Session.joined, hfirst, hunderway.length_eq, Nat.sub_zero]
  rcases hended with rfl | hfailed
  · -- all calls have started
    obtain ⟨⟨m, hrounds⟩, hended⟩ := @Underway.rounds _ _ _ _ join _ _ hunderway hids
    exact ⟨started, m, _, hprefix, hrounds, hjoined, hended.imp_right fun hsettled => ⟨rfl, hsettled⟩⟩
  · -- the join has failed before the first round was over
    rw [Session.rounds_of_failed hfailed] at hjoined
    exact ⟨started, _, _, hprefix, hunderway, hjoined, .inl hfailed⟩

/-- Joined calls over a late source end with the fronts of the table's grips, or with the
    fault that one of the references is refused. -/
theorem Session.joined_delayed {source : Source} (hdelays : source.Delays table) (limits : Limits)
    (hjoin : join ≠ .never) (hdistinct : references.Pairwise (·.actor ≠ ·.actor)) :
    let result := ({ limits := limits, source := source } : Session).joined join references
    (∃ fronts, Answered limits (TableResolver.describe? table) references fronts none ∧
      result.1.map result.2.state.outcome? = outcomes fronts none) ∨
    ∃ reference ∈ references, TableResolver.describe? table reference = none ∧
      result.2.failure? result.1 join = some (.unresolvable reference) := by
  obtain ⟨started, m, u, hprefix, hunderway, hjoined, hended⟩ :=
    exists_rounds_delayed hdelays limits join hdistinct
  rw [hjoined]
  intro result
  have houtcome : result.2.state.outcome? = u.state.outcome? := outcome?_dropAll u _
  have hfailure : result.2.failure? result.1 join = u.failure? result.1 join :=
    failure?_congr houtcome result.1
  cases hfault : u.failure? (List.range' 0 started.length) join with
  | some fault =>
    obtain ⟨id, hid, hcause⟩ := exists_outcome_of_failure? hfault
    obtain ⟨reference, hmem, hnone, rfl⟩ := hunderway.refused (by simpa using hid) hcause
    exact .inr ⟨reference, hprefix.subset hmem, hnone, hfailure.trans hfault⟩
  | none =>
    rw [hfault] at hended
    obtain ⟨rfl, hsettled⟩ : started = references ∧ _ := hended.resolve_left Bool.false_ne_true
    left
    have hfronts := exists_front_of_settled hjoin hsettled hfault
    obtain ⟨fronts, hanswered, hcalls⟩ := @exists_answered table limits started u.state.calls
      hunderway.length_eq fun id reference hget => by
        have hlt : id < started.length := (List.getElem?_eq_some_iff.1 hget).1
        obtain ⟨shared, hok⟩ := hfronts id (by simpa using hlt)
        obtain ⟨grip, hserved⟩ := hunderway.served hget hok
        exact ⟨grip, shared, hserved⟩
    refine ⟨fronts, hanswered, ?_⟩
    have hmap := map_outcome?_range' u 0
    rw [hunderway.length_eq] at hmap
    rw [houtcome]
    exact hmap.trans hcalls

end Console.SingleFlight
