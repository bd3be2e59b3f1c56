import Console.Proofs.SingleFlight.Invariant
import Console.Proofs.SingleFlight.Moves
import Mathlib.Data.List.Induction
import Mathlib.Data.List.Perm.Basic

/-! # Interleavings of calls

    If the source always gives an actor the same answer, and all calls for it expect the
    same type, then what calls come to does not depend on how they interleave: each ends
    with the verdict on its own reference, an actor is cached exactly if the verdict on it
    is a front, and it is fetched once if it is and by each of its calls if it is not.

    - `verdict`: what the answer of a source makes of a reference,
    - `ConstantlyReachable`: the states of such runs, in which no call is dropped,
    - `Told`: what every such run keeps true,
    - `Complete.outcome_eq`, `Complete.front_iff`, `Complete.fetchCount_eq`: what is true
      once all calls have finished, said of their references alone,
    - `State.serveAll`: calls made one after another, as one such run.
-/

namespace Console.SingleFlight

variable {limits : Limits} {answer : ActorId → Reply} {s t : State} {id : Nat}
  {reference : Reference} {actor : ActorId}

/-! ### Constant sources -/

/-- What a call for a reference comes to, by the answer that the source gives its actor. -/
def verdict (limits : Limits) (answer : ActorId → Reply) (reference : Reference) :
    Except Fault Front :=
  ((answer reference.actor).judge reference).map (Front.ofGrip limits)

/-- Says that a move replies with the answer for the actor, or is a call or a resumption. -/
def Constant (answer : ActorId → Reply) (s : State) : Move → Prop
  | .reply id reply => ∀ call, s.calls[id]? = some call → reply = answer call.reference.actor
  | .drop _ => False
  | _ => True

/-- The states that moves lead to from the start, if the source always answers the same and
    no call is dropped. -/
inductive ConstantlyReachable (limits : Limits) (answer : ActorId → Reply) : State → Prop where
  | start : ConstantlyReachable limits answer {}
  | step {s t : State} {move : Move} :
      ConstantlyReachable limits answer s → Constant answer s move →
      s.step? limits move = some t → ConstantlyReachable limits answer t

theorem ConstantlyReachable.reachable (h : ConstantlyReachable limits answer s) :
    Reachable limits s := by
  induction h with
  | start => exact .start
  | step _ _ hstep ih => exact .step ih hstep

/-! ### References and fetches -/

/-- The references that calls have been made for, in order. -/
def State.references (s : State) : List Reference := s.calls.map Call.reference

/-- Whether a call at this stage has made a fetch that gave no front, or has given none
    yet. -/
def Stage.spends : Stage → Bool
  | fetching => true
  | finished (.error _) => true
  | dropped fetched => fetched
  | _ => false

/-- Whether a call has made such a fetch of an actor. -/
def Call.spends (call : Call) (actor : ActorId) : Bool :=
  call.stage.spends && call.reference.actor = actor

section
variable {move : Move} {before : Option Stage} {after : Stage} {cell cell' : Cell}

theorem Effect.references_of_new (h : Effect s id reference none after cell t) :
    t.references = s.references ++ [reference] := by
  unfold State.references
  rw [h.calls_of_new, List.map_append]
  rfl

theorem Effect.references_of_old {stage : Stage}
    (h : Effect s id reference (some stage) after cell t) : t.references = s.references := by
  have hbefore := congrArg (List.map Call.reference) h.calls_before
  unfold State.references
  rw [hbefore, h.calls]
  simp

/-- A call is there still after a move, perhaps at another stage. -/
theorem Effect.references_subset (h : Effect s id reference before after cell t) :
    s.references ⊆ t.references := by
  cases before with
  | none => exact h.references_of_new ▸ List.subset_append_left _ _
  | some stage => exact h.references_of_old ▸ List.Subset.refl _

/-- A fetch that starts is spent by its call until it succeeds, and then counts for the
    front. -/
theorem Shift.balance (h : Shift limits id reference move before cell after cell')
    (hfront : before = some .fetching → cell.front = none) :
    (if after.isFetching then 1 else 0) +
        (before.map (Call.mk reference)).toList.countP (·.spends reference.actor) +
        (if cell.front.isSome then 1 else 0) =
      [(⟨reference, after⟩ : Call)].countP (·.spends reference.actor) +
        (if cell'.front.isSome then 1 else 0) := by
  cases h with
  | succeeded => simp [Stage.isFetching, Call.spends, Stage.spends, hfront rfl]
  | _ => simp [Stage.isFetching, Call.spends, Stage.spends]

/-- A call makes no fetches of other actors. -/
theorem countP_spends_ne (ha : actor ≠ reference.actor) (stage : Option Stage) :
    (stage.map (Call.mk reference)).toList.countP (·.spends actor) = 0 := by
  cases stage with
  | none => rfl
  | some stage => simp [Call.spends, Ne.symm ha]

/-- Only a fetch that succeeds changes the front of its cell. -/
theorem Shift.front_eq (h : Shift limits id reference move before cell after cell') :
    cell'.front = cell.front ∨
      ∃ reply grip serial, move = .reply id reply ∧ before = some .fetching ∧
        reply.judge reference = .ok grip ∧
        cell'.front = some ⟨serial, Front.ofGrip limits grip⟩ := by
  cases h with
  | succeeded hjudge => exact .inr ⟨_, _, _, rfl, rfl, hjudge, rfl⟩
  | _ => exact .inl rfl

/-- Only a fetch that fails finishes its call with a fault. -/
theorem Shift.exists_of_error {fault : Fault}
    (h : Shift limits id reference move before cell (.finished (.error fault)) cell') :
    ∃ reply, move = .reply id reply ∧ before = some .fetching ∧
      reply.judge reference = .error fault := by
  cases h with
  | failed hjudge => exact ⟨_, rfl, rfl, hjudge⟩

end

/-! ### What runs keep -/

/-- What runs with a constant source keep true: faults and fronts are verdicts, and the
    fetches of an actor are those that its calls have spent and the one that made its
    front. -/
structure Told (limits : Limits) (answer : ActorId → Reply) (s : State) : Prop where
  fault : ∀ (id : Nat) (reference : Reference) (fault : Fault),
    s.calls[id]? = some ⟨reference, .finished (.error fault)⟩ →
    verdict limits answer reference = .error fault
  front : ∀ actor shared, (s.cell actor).front = some shared →
    ∃ reference ∈ s.references, reference.actor = actor ∧
      verdict limits answer reference = .ok shared.value
  fetchCount : ∀ actor, s.fetchCount actor =
    s.calls.countP (·.spends actor) + if (s.cell actor).front.isSome then 1 else 0

namespace Told

theorem start : Told limits answer {} where
  fault := fun _ _ _ h => nomatch h
  front := fun _ _ h => nomatch h
  fetchCount := fun _ => rfl

theorem step {move : Move} (h : Told limits answer s) (hs : Reachable limits s)
    (hconstant : Constant answer s move) (hstep : s.step? limits move = some t) :
    Told limits answer t := by
  obtain ⟨id, reference, before, after, cell, hshift, heffect⟩ := shifts_of_step? hstep
  -- a reply to the fetch of this call is the answer for its actor
  have hanswer : ∀ reply, move = .reply id reply → before = some .fetching →
      reply = answer reference.actor := by
    rintro reply rfl rfl
    exact hconstant _ heffect.before
  constructor
  case fault =>
    intro other found fault hcall
    by_cases hother : other = id
    · subst hother
      rw [heffect.getElem?_self] at hcall
      cases hcall
      obtain ⟨reply, hmove, hbefore, hjudge⟩ := hshift.exists_of_error
      rw [hanswer reply hmove hbefore] at hjudge
      rw [verdict, hjudge]
      rfl
    · rw [heffect.getElem?_ne hother] at hcall
      exact h.fault other found fault hcall
  case front =>
    intro a shared hfront
    have hkept : (s.cell a).front = some shared → ∃ r ∈ t.references, r.actor = a ∧
        verdict limits answer r = .ok shared.value := by
      intro hbefore
      obtain ⟨r, hr, hactor, hverdict⟩ := h.front a shared hbefore
      exact ⟨r, heffect.references_subset hr, hactor, hverdict⟩
    by_cases ha : a = reference.actor
    · subst ha
      rw [heffect.cell] at hfront
      rcases hshift.front_eq with hsame | ⟨reply, grip, serial, hmove, hbefore, hjudge, hmade⟩
      · exact hkept (hsame ▸ hfront)
      · -- the front has just been made, from the answer for this actor
        rw [hmade] at hfront
        cases hfront
        rw [hanswer reply hmove hbefore] at hjudge
        refine ⟨reference, ?_, rfl, ?_⟩
        · exact List.mem_map.2 ⟨_, List.mem_of_getElem? heffect.getElem?_self, rfl⟩
        · rw [verdict, hjudge]
          rfl
    · rw [heffect.cells a ha] at hfront
      exact hkept hfront
  case fetchCount =>
    intro a
    have hbefore := h.fetchCount a
    have hcount := heffect.countP_calls (·.spends a)
    unfold State.fetchCount at hbefore ⊢
    rw [heffect.fetches, List.count_append, hbefore]
    by_cases ha : a = reference.actor
    · -- a fetch that starts is not spent yet, and one that ends is spent or has made the front
      subst ha
      obtain ⟨history, hrun⟩ := reachable_iff_run.1 hs
      have hflight : Flight s history := by simpa using Flight.start.run hrun
      have hbalance := hshift.balance (by
        rintro rfl
        exact (hflight.of_fetching heffect.before).2)
      have hstarted : (if after.isFetching then [reference.actor] else []).count reference.actor =
          if after.isFetching then 1 else 0 := by split <;> simp
      rw [heffect.cell, hstarted]
      omega
    · have hnone := countP_spends_ne ha before
      have hone := countP_spends_ne ha (some after)
      have hstarted : (if after.isFetching then [reference.actor] else []).count a = 0 := by
        split <;> simp [Ne.symm ha]
      rw [heffect.cells a ha, hstarted]
      simp only [Option.map_some, Option.toList_some] at hone
      omega

end Told

theorem told_of_constantlyReachable (h : ConstantlyReachable limits answer s) :
    Told limits answer s := by
  induction h with
  | start => exact .start
  | step hs hconstant hstep ih => exact ih.step hs.reachable hconstant hstep

/-! ### Complete runs -/

/-- Says that all calls have finished. -/
def State.Complete (s : State) : Prop :=
  ∀ (id : Nat) (call : Call), s.calls[id]? = some call → ∃ outcome, call.stage = .finished outcome

/-- Says that references to one actor are equal, because they expect the same type. -/
def Uniform (references : List Reference) : Prop :=
  ∀ x ∈ references, ∀ y ∈ references, x.actor = y.actor → x.type = y.type

instance (references : List Reference) : Decidable (Uniform references) :=
  inferInstanceAs (Decidable (∀ x ∈ references, ∀ y ∈ references,
    x.actor = y.actor → x.type = y.type))

theorem Uniform.eq {references : List Reference} (h : Uniform references) {x y : Reference}
    (hx : x ∈ references) (hy : y ∈ references) (hactor : x.actor = y.actor) : x = y := by
  have htype := h x hx y hy hactor
  cases x
  cases y
  simp_all

/-- The fetches that calls for the references make of an actor: one if the verdict on it is
    a front, and otherwise one by each of its calls. -/
def fetchesOf (limits : Limits) (answer : ActorId → Reply) (references : List Reference)
    (actor : ActorId) : Nat :=
  if references.any fun r => r.actor = actor && (verdict limits answer r).isOk then 1
  else references.countP (·.actor = actor)

/-- The fetches do not depend on the order of the references. -/
theorem fetchesOf_perm {first second : List Reference} (h : first.Perm second) (actor : ActorId) :
    fetchesOf limits answer first actor = fetchesOf limits answer second actor := by
  unfold fetchesOf
  rw [h.any_eq, h.countP_eq]

namespace State.Complete

variable {shared : Shared Front}

/-- A call that finished with a front finished with that of its cell. -/
theorem front_of_finished (hs : ConstantlyReachable limits answer s)
    (hcall : s.calls[id]? = some ⟨reference, .finished (.ok shared)⟩) :
    (s.cell reference.actor).front = some shared := by
  obtain ⟨history, hrun⟩ := reachable_iff_run.1 hs.reachable
  have hflight : Flight s history := by simpa using Flight.start.run hrun
  exact hflight.shared _ (List.mem_of_getElem? hcall) shared rfl

/-- Each call ends with the verdict on its reference. -/
theorem outcome_eq (hdone : s.Complete) (hs : ConstantlyReachable limits answer s)
    (htypes : Uniform s.references) {call : Call} (hcall : s.calls[id]? = some call) :
    ∃ outcome, s.outcome? id = some outcome ∧
      outcome.map Shared.value = verdict limits answer call.reference := by
  have htold := told_of_constantlyReachable hs
  obtain ⟨reference, stage⟩ := call
  obtain ⟨outcome, rfl⟩ := hdone id _ hcall
  refine ⟨outcome, State.outcome?_eq_some_iff.2 ⟨reference, hcall⟩, ?_⟩
  cases outcome with
  | error fault => exact (htold.fault id reference fault hcall).symm
  | ok shared =>
    -- the front was made for this reference, since all to its actor are equal
    obtain ⟨maker, hmaker, hactor, hverdict⟩ :=
      htold.front reference.actor shared (front_of_finished hs hcall)
    have hmem : reference ∈ s.references := List.mem_map.2 ⟨_, List.mem_of_getElem? hcall, rfl⟩
    rw [htypes.eq hmaker hmem hactor] at hverdict
    exact hverdict.symm

/-- The fronts in the cells are the verdicts that are fronts. -/
theorem front_iff (hdone : s.Complete) (hs : ConstantlyReachable limits answer s)
    (htypes : Uniform s.references) {front : Front} :
    (s.cell actor).front.map Shared.value = some front ↔
      ∃ reference ∈ s.references, reference.actor = actor ∧
        verdict limits answer reference = .ok front := by
  constructor
  · intro hfront
    obtain ⟨shared, hshared, rfl⟩ := Option.map_eq_some_iff.1 hfront
    exact (told_of_constantlyReachable hs).front actor shared hshared
  · rintro ⟨reference, hmem, rfl, hverdict⟩
    obtain ⟨call, hcall, rfl⟩ := List.mem_map.1 hmem
    obtain ⟨id, hid⟩ := List.getElem?_of_mem hcall
    obtain ⟨outcome, houtcome, hvalue⟩ := hdone.outcome_eq hs htypes hid
    rw [hverdict] at hvalue
    obtain ⟨reference, hfinished⟩ := State.outcome?_eq_some_iff.1 houtcome
    rw [hid] at hfinished
    cases hfinished
    cases outcome with
    | error => cases hvalue
    | ok shared =>
      cases hvalue
      rw [front_of_finished hs hid]
      rfl

/-- A call has spent its fetch exactly if its verdict is a fault. -/
theorem spends_eq (hdone : s.Complete) (hs : ConstantlyReachable limits answer s)
    (htypes : Uniform s.references) {call : Call} (hmem : call ∈ s.calls) (actor : ActorId) :
    call.spends actor =
      (decide (call.reference.actor = actor) && !(verdict limits answer call.reference).isOk) := by
  obtain ⟨id, hcall⟩ := List.getElem?_of_mem hmem
  obtain ⟨outcome, houtcome, hvalue⟩ := hdone.outcome_eq hs htypes hcall
  obtain ⟨reference, hfinished⟩ := State.outcome?_eq_some_iff.1 houtcome
  rw [hcall] at hfinished
  cases hfinished
  rw [← hvalue, Call.spends, Bool.and_comm]
  cases outcome <;> rfl

/-- The front of an actor is cached exactly if one of its references has it for a verdict. -/
theorem isSome_front_eq (hdone : s.Complete) (hs : ConstantlyReachable limits answer s)
    (htypes : Uniform s.references) (actor : ActorId) :
    (s.cell actor).front.isSome =
      s.references.any fun r => r.actor = actor && (verdict limits answer r).isOk := by
  rw [Bool.eq_iff_iff, List.any_eq_true]
  constructor
  · intro hsome
    obtain ⟨shared, hshared⟩ := Option.isSome_iff_exists.1 hsome
    obtain ⟨maker, hmaker, hactor, hverdict⟩ :=
      (told_of_constantlyReachable hs).front actor shared hshared
    exact ⟨maker, hmaker, by simp [hactor, hverdict, Except.isOk, Except.toBool]⟩
  · rintro ⟨reference, hmem, hok⟩
    rw [Bool.and_eq_true, decide_eq_true_eq] at hok
    cases hverdict : verdict limits answer reference with
    | error fault =>
      rw [hverdict] at hok
      exact absurd hok.2 Bool.false_ne_true
    | ok front =>
      have hfront := (hdone.front_iff hs htypes).2 ⟨reference, hmem, hok.1, hverdict⟩
      rw [← Option.isSome_map, hfront]
      rfl

/-- Each actor has been fetched as often as the references to it demand. -/
theorem fetchCount_eq (hdone : s.Complete) (hs : ConstantlyReachable limits answer s)
    (htypes : Uniform s.references) (actor : ActorId) :
    s.fetchCount actor = fetchesOf limits answer s.references actor := by
  have hspent : s.calls.countP (·.spends actor) = s.references.countP fun r =>
      decide (r.actor = actor) && !(verdict limits answer r).isOk := by
    rw [State.references, List.countP_map]
    refine List.countP_congr fun call hmem => ?_
    rw [hdone.spends_eq hs htypes hmem]
    rfl
  rw [(told_of_constantlyReachable hs).fetchCount, hspent, hdone.isSome_front_eq hs htypes,
    fetchesOf]
  by_cases hany : s.references.any fun r => r.actor = actor && (verdict limits answer r).isOk
  · -- one reference to the actor resolves, and so do all that are equal to it
    rw [if_pos hany, if_pos hany]
    obtain ⟨maker, hmaker, hok⟩ := List.any_eq_true.1 hany
    rw [Bool.and_eq_true, decide_eq_true_eq] at hok
    have hnone : s.references.countP (fun r =>
        decide (r.actor = actor) && !(verdict limits answer r).isOk) = 0 := by
      rw [List.countP_eq_zero]
      intro r hr hfails
      rw [Bool.and_eq_true, decide_eq_true_eq] at hfails
      rw [htypes.eq hr hmaker (hfails.1.trans hok.1.symm), hok.2] at hfails
      exact absurd hfails.2 Bool.false_ne_true
    rw [hnone]
  · rw [if_neg hany, if_neg hany, Nat.add_zero]
    refine List.countP_congr fun r hr => ?_
    rw [List.any_eq_true] at hany
    simp only [Bool.and_eq_true, decide_eq_true_eq, Bool.not_eq_true']
    constructor
    · intro h
      exact h.1
    · intro hactor
      refine ⟨hactor, ?_⟩
      by_contra hok
      exact hany ⟨r, hr, by simp [hactor, Bool.eq_true_of_not_eq_false hok]⟩

end State.Complete

/-! ### One after another -/

/-- Makes a call and lets the source reply at once if the call fetches. -/
def State.serve (limits : Limits) (answer : ActorId → Reply) (s : State) (reference : Reference) :
    State :=
  ((s.call reference).reply? limits s.calls.length (answer reference.actor)).getD
    (s.call reference)

/-- Calls for references, each made when the one before it has finished. -/
def State.serveAll (limits : Limits) (answer : ActorId → Reply) (references : List Reference) :
    State :=
  references.foldl (State.serve limits answer) {}

/-- Between calls that are made one after another every cell is free and nobody waits. -/
theorem State.Complete.cell_eq (hdone : s.Complete) (hs : Reachable limits s) (actor : ActorId) :
    s.cell actor = { front := (s.cell actor).front } := by
  have horderly := orderly_of_reachable hs
  have hholder : (s.cell actor).holder = none := by
    refine Option.eq_none_iff_forall_ne_some.2 fun id hid => ?_
    obtain ⟨type, hcall⟩ := (horderly.holder actor id).1 hid
    obtain ⟨outcome, houtcome⟩ := hdone id _ hcall
    cases houtcome
  have hqueue : (s.cell actor).queue = [] := by
    refine List.eq_nil_iff_forall_not_mem.2 fun id hid => ?_
    obtain ⟨type, hcall⟩ := (horderly.queue actor id).1 hid
    obtain ⟨outcome, houtcome⟩ := hdone id _ hcall
    cases houtcome
  cases hcell : s.cell actor with
  | mk front holder queue =>
    rw [hcell] at hholder hqueue
    cases hholder
    cases hqueue
    rfl

/-- A call that has finished after all others completes the run. -/
theorem Effect.complete {before : Option Stage} {outcome : Except Fault (Shared Front)}
    {cell : Cell} (h : Effect s id reference before (.finished outcome) cell t)
    (hothers : ∀ (other : Nat) (call : Call), other ≠ id → s.calls[other]? = some call →
      ∃ outcome, call.stage = .finished outcome) : t.Complete := by
  intro other call hcall
  by_cases hother : other = id
  · subst hother
    rw [h.getElem?_self] at hcall
    cases hcall
    exact ⟨outcome, rfl⟩
  · rw [h.getElem?_ne hother] at hcall
    exact hothers other call hother hcall

/-- A call that is made when all others have finished is served at once. -/
theorem serve_spec (hs : ConstantlyReachable limits answer s) (hdone : s.Complete)
    (reference : Reference) :
    ConstantlyReachable limits answer (s.serve limits answer reference) ∧
      (s.serve limits answer reference).Complete ∧
      (s.serve limits answer reference).references = s.references ++ [reference] := by
  have hcalled : ConstantlyReachable limits answer (s.call reference) :=
    @ConstantlyReachable.step _ _ _ _ (.call reference) hs trivial rfl
  have hcell := hdone.cell_eq hs.reachable reference.actor
  cases hfront : (s.cell reference.actor).front with
  | some shared =>
    rw [hfront] at hcell
    have heffect := effect_call_found hcell
    -- there is no fetch to reply to
    have hreply : (s.call reference).reply? limits s.calls.length (answer reference.actor) = none := by
      simp only [State.reply?, heffect.getElem?_self]
    rw [State.serve, hreply, Option.getD_none]
    exact ⟨hcalled, heffect.complete fun other call _ => hdone other call,
      heffect.references_of_new⟩
  | none =>
    rw [hfront] at hcell
    have heffect := effect_call_first hcell
    obtain ⟨t, outcome, hstep, -, hreplied⟩ :=
      exists_reply limits heffect.getElem?_self (answer reference.actor)
    have hserve : s.serve limits answer reference = t := by
      have hreply : (s.call reference).reply? limits s.calls.length (answer reference.actor) =
        some t := hstep
      rw [State.serve, hreply, Option.getD_some]
    rw [hserve]
    refine ⟨.step hcalled ?_ hstep, hreplied.complete ?_, ?_⟩
    · intro call hcall
      rw [heffect.getElem?_self] at hcall
      cases hcall
      rfl
    · intro other call hother hcall
      rw [heffect.getElem?_ne hother] at hcall
      exact hdone other call hcall
    · rw [hreplied.references_of_old, heffect.references_of_new]

/-- Serving calls one after another is a run in which all of them finish. -/
theorem serveAll_spec (limits : Limits) (answer : ActorId → Reply) (references : List Reference) :
    ConstantlyReachable limits answer (State.serveAll limits answer references) ∧
      (State.serveAll limits answer references).Complete ∧
      (State.serveAll limits answer references).references = references := by
  -- the references served so far are the last ones to be made calls for
  induction references using List.reverseRecOn with
  | nil =>
    refine ⟨.start, ?_, rfl⟩
    intro _ _ h
    cases h
  | append_singleton served reference ih =>
    obtain ⟨hreachable, hdone, hserved⟩ := ih
    have hlast : State.serveAll limits answer (served ++ [reference]) =
        (State.serveAll limits answer served).serve limits answer reference :=
      List.foldl_concat ..
    obtain ⟨hreachable', hdone', hserved'⟩ := serve_spec hreachable hdone reference
    rw [hlast]
    exact ⟨hreachable', hdone', by rw [hserved', hserved]⟩

/-! ### Order-independence -/

/-- If a source always answers the same, all calls for one actor expect one type and none is
    dropped, then in every run in which all calls finish, each comes to the same front or
    the same fault, the same fronts are cached, and every actor is fetched as often, as when
    the calls are made one after another, in any order. -/
theorem order_independent (hs : ConstantlyReachable limits answer s) (hdone : s.Complete)
    (htypes : Uniform s.references) {references : List Reference}
    (horder : references.Perm s.references) :
    let t := State.serveAll limits answer references
    ConstantlyReachable limits answer t ∧ t.Complete ∧ t.references = references ∧
    (∀ i j x y, s.calls[i]? = some x → t.calls[j]? = some y → x.reference = y.reference →
      ∃ first second, s.outcome? i = some first ∧ t.outcome? j = some second ∧
        first.map Shared.value = second.map Shared.value) ∧
    (∀ actor, (s.cell actor).front.map Shared.value = (t.cell actor).front.map Shared.value) ∧
    ∀ actor, s.fetchCount actor = t.fetchCount actor := by
  intro t
  obtain ⟨ht, htdone, htreferences⟩ := serveAll_spec limits answer references
  have hsame : t.references.Perm s.references := htreferences ▸ horder
  have httypes : Uniform t.references := by
    intro x hx y hy
    exact htypes x (hsame.mem_iff.1 hx) y (hsame.mem_iff.1 hy)
  refine ⟨ht, htdone, htreferences, ?_, ?_, ?_⟩
  · intro i j x y hx hy hreference
    obtain ⟨first, hfirst, hvalue⟩ := hdone.outcome_eq hs htypes hx
    obtain ⟨second, hsecond, hvalue'⟩ := htdone.outcome_eq ht httypes hy
    exact ⟨first, second, hfirst, hsecond, by rw [hvalue, hvalue', hreference]⟩
  · intro actor
    apply Option.ext
    intro front
    rw [hdone.front_iff hs htypes, htdone.front_iff ht httypes]
    exact exists_congr fun reference => and_congr_left fun _ => hsame.mem_iff.symm
  · intro actor
    rw [hdone.fetchCount_eq hs htypes, htdone.fetchCount_eq ht httypes, fetchesOf_perm hsame]

/-- Two calls for an actor whose source is gone and two for a symbol, made in turn and
    interleaved: they come to the same as one after another. -/
theorem order_independent_interleaved :
    let answer (actor : ActorId) : Reply :=
      if actor = ⟨"a"⟩ then .failed (.unavailable actor "gone") else .grip (.symbol actor none)
    ∃ s, ConstantlyReachable {} answer s ∧ s.Complete ∧
      s.references = [⟨⟨"a"⟩, .object⟩, ⟨⟨"b"⟩, .symbol⟩, ⟨⟨"a"⟩, .object⟩, ⟨⟨"b"⟩, .symbol⟩] ∧
      ∀ actor, s.fetchCount actor = (State.serveAll {} answer s.references).fetchCount actor := by
  intro answer
  have h₁ := @ConstantlyReachable.step {} answer _ _ (.call ⟨⟨"a"⟩, .object⟩) .start trivial rfl
  have h₂ := @ConstantlyReachable.step {} answer _ _ (.call ⟨⟨"b"⟩, .symbol⟩) h₁ trivial rfl
  have h₃ := @ConstantlyReachable.step {} answer _ _ (.call ⟨⟨"a"⟩, .object⟩) h₂ trivial rfl
  have h₄ := @ConstantlyReachable.step {} answer _ _ (.call ⟨⟨"b"⟩, .symbol⟩) h₃ trivial rfl
  have h₅ := @ConstantlyReachable.step {} answer _ _ (.reply 0 (answer ⟨"a"⟩)) h₄
    (fun call hcall => by cases hcall; rfl) rfl
  have h₆ := @ConstantlyReachable.step {} answer _ _ (.resume 2) h₅ trivial rfl
  have h₇ := @ConstantlyReachable.step {} answer _ _ (.reply 1 (answer ⟨"b"⟩)) h₆
    (fun call hcall => by cases hcall; rfl) rfl
  have h₈ := @ConstantlyReachable.step {} answer _ _ (.reply 2 (answer ⟨"a"⟩)) h₇
    (fun call hcall => by cases hcall; rfl) rfl
  have h₉ := @ConstantlyReachable.step {} answer _ _ (.resume 3) h₈ trivial rfl
  obtain ⟨s, hs, hcalls⟩ : ∃ s, ConstantlyReachable {} answer s ∧
      s.calls = [⟨⟨⟨"a"⟩, .object⟩, .finished (.error (.unavailable ⟨"a"⟩ "gone"))⟩,
        ⟨⟨⟨"b"⟩, .symbol⟩, .finished (.ok ⟨0, Front.ofGrip {} (.symbol ⟨"b"⟩ none)⟩)⟩,
        ⟨⟨⟨"a"⟩, .object⟩, .finished (.error (.unavailable ⟨"a"⟩ "gone"))⟩,
        ⟨⟨⟨"b"⟩, .symbol⟩, .finished (.ok ⟨0, Front.ofGrip {} (.symbol ⟨"b"⟩ none)⟩)⟩] :=
    ⟨_, h₉, rfl⟩
  have hdone : s.Complete := by
    intro id call hcall
    have hmem := hcalls ▸ List.mem_of_getElem? hcall
    simp only [List.mem_cons, List.not_mem_nil, or_false] at hmem
    obtain rfl | rfl | rfl | rfl := hmem
    all_goals exact ⟨_, rfl⟩
  have hreferences : s.references = [⟨⟨"a"⟩, .object⟩, ⟨⟨"b"⟩, .symbol⟩, ⟨⟨"a"⟩, .object⟩,
      ⟨⟨"b"⟩, .symbol⟩] := congrArg (List.map Call.reference) hcalls
  have htypes : Uniform s.references := by
    rw [hreferences]
    decide
  refine ⟨s, hs, hdone, hreferences, ?_⟩
  exact (order_independent hs hdone htypes (List.Perm.refl _)).2.2.2.2.2

end Console.SingleFlight
