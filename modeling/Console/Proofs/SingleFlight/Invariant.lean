import Console.Proofs.SingleFlight.Run
import Mathlib.Data.Finset.Dedup
import Mathlib.Data.Finset.Card

/-! # Single flight over any interleaving

    `Flight s history` is what every run keeps true of its state and the fetches it ended:

    - a cell is held exactly while its actor has a fetch in flight, and then by one,
    - a cell with a front is free,
    - the fetches started are those that ended and the one in flight,
    - a cell has a front exactly if a fetch of its actor succeeded,
    - calls that finished with a front finished with that of their cell.

    Turns preserve it (`Flight.turn`), and so do runs (`Flight.run`). A front that is in its
    cell stays there, and its actor is not fetched again (`Flight.front_run`).
-/

namespace Console.SingleFlight

/-! ### Changing one call -/

/-- Counting after one item has changed. -/
theorem countP_modify {α : Type} (p : α → Bool) (f : α → α) {xs : List α} {i : Nat} {x : α}
    (h : xs[i]? = some x) :
    (xs.modify i f).countP p + (if p x then 1 else 0) =
      xs.countP p + (if p (f x) then 1 else 0) := by
  induction xs generalizing i with
  | nil => simp at h
  | cons y rest ih =>
    -- the item that changes is the first one or one of the rest
    cases i with
    | zero =>
      simp only [List.getElem?_cons_zero, Option.some.injEq] at h
      subst h
      simp only [List.modify_zero_cons, List.countP_cons]
      omega
    | succ i =>
      rw [List.getElem?_cons_succ] at h
      have hrest := ih h
      simp only [List.modify_succ_cons, List.countP_cons]
      omega

variable {limits : Limits} {s t : State} {id : Nat} {reference : Reference} {actor : ActorId}
  {history : History}

/-- A change of stage matters to the fetches in flight if the call fetched before or does
    after. -/
theorem inFlight_setStage {call : Call} (stage : Stage) (h : s.calls[id]? = some call)
    (actor : ActorId) :
    (s.setStage id stage).inFlight actor + (if call.fetches actor then 1 else 0) =
      s.inFlight actor + (if ({ call with stage := stage } : Call).fetches actor then 1 else 0) :=
  countP_modify _ _ h

/-- A call of the state after a change of stage is an earlier one or the changed one. -/
theorem mem_calls_setStage {stage : Stage} {call : Call} (h : call ∈ (s.setStage id stage).calls) :
    call ∈ s.calls ∨ ∃ before, s.calls[id]? = some before ∧ call = { before with stage := stage } := by
  obtain ⟨i, hi⟩ := List.mem_iff_getElem?.1 h
  simp only [State.setStage, List.getElem?_modify] at hi
  by_cases hid : id = i
  · subst hid
    right
    cases hbefore : s.calls[id]? with
    | none => simp [hbefore] at hi
    | some before =>
      rw [hbefore] at hi
      simp only [if_true, Option.map_eq_map, Option.map_some, Option.some.injEq] at hi
      exact ⟨before, rfl, hi.symm⟩
  · left
    simp only [if_neg hid] at hi
    exact List.mem_of_getElem? (by simpa using hi)

theorem fetches_eq_false {call : Call} (h : call.stage ≠ .fetching) (actor : ActorId) :
    call.fetches actor = false := by
  unfold Call.fetches
  split
  · next hstage => exact absurd hstage h
  · rfl

/-- A call that neither fetched nor does now changes no count. -/
theorem inFlight_setStage_of_ne {call : Call} {stage : Stage} (h : s.calls[id]? = some call)
    (hbefore : call.stage ≠ .fetching) (hafter : stage ≠ .fetching) (actor : ActorId) :
    (s.setStage id stage).inFlight actor = s.inFlight actor := by
  have hcount := inFlight_setStage stage h actor
  rw [fetches_eq_false hbefore, fetches_eq_false hafter] at hcount
  simpa using hcount

/-- A fetch that starts is one more in flight. -/
theorem inFlight_setStage_fetching (h : s.calls[id]? = some ⟨reference, .waiting⟩)
    (actor : ActorId) :
    (s.setStage id .fetching).inFlight actor =
      s.inFlight actor + (if reference.actor = actor then 1 else 0) := by
  have hcount := inFlight_setStage .fetching h actor
  rw [fetches_eq_false (by nofun)] at hcount
  simpa [Call.fetches] using hcount

/-- A fetch that ends is one less in flight. -/
theorem inFlight_setStage_ended {stage : Stage} (h : s.calls[id]? = some ⟨reference, .fetching⟩)
    (hstage : stage ≠ .fetching) (actor : ActorId) :
    (s.setStage id stage).inFlight actor + (if reference.actor = actor then 1 else 0) =
      s.inFlight actor := by
  have hcount := inFlight_setStage stage h actor
  rw [@fetches_eq_false ⟨reference, stage⟩ hstage] at hcount
  simpa [Call.fetches] using hcount

/-- The call that comes to hold a cell starts one fetch of its actor. -/
theorem fetchCount_hold (s : State) (id : Nat) (actor : ActorId) (queue : List Nat) (a : ActorId) :
    (s.hold id actor queue).fetchCount a = s.fetchCount a + (if actor = a then 1 else 0) := by
  simp [State.fetchCount, State.hold, State.setStage, State.setCell, List.count_append,
    List.count_singleton]

/-- Two actors differ if one has a front and the other has none. -/
theorem ne_of_front (hnone : (s.cell reference.actor).front = none)
    (hfront : (s.cell actor).front.isSome) : actor ≠ reference.actor := by
  rintro rfl
  rw [hnone] at hfront
  cases hfront

/-! ### The invariant -/

/-- What runs keep true of a state and the fetches ended on the way to it. -/
structure Flight (s : State) (history : History) : Prop where
  inFlight : ∀ actor, s.inFlight actor = if (s.cell actor).holder.isSome then 1 else 0
  free : ∀ actor, (s.cell actor).front.isSome → (s.cell actor).holder = none
  balance : ∀ actor, s.fetchCount actor =
    history.count (actor, .failed) + history.count (actor, .abandoned) + s.inFlight actor +
      if (s.cell actor).front.isSome then 1 else 0
  cached : ∀ actor, (s.cell actor).front.isSome ↔ (actor, .succeeded) ∈ history
  shared : ∀ call ∈ s.calls, ∀ shared, call.stage = .finished (.ok shared) →
    (s.cell call.reference.actor).front = some shared

namespace Flight

theorem start : Flight {} [] where
  inFlight := fun _ => rfl
  free := fun _ h => nomatch h
  balance := fun _ => rfl
  cached := fun _ => by simp [State.cell]
  shared := fun _ h => nomatch h

/-- While an actor is fetched it has one fetch in flight and no front. -/
theorem of_fetching (h : Flight s history) (hcall : s.calls[id]? = some ⟨reference, .fetching⟩) :
    s.inFlight reference.actor = 1 ∧ (s.cell reference.actor).front = none := by
  have hcount := @inFlight_setStage_ended s id reference .waiting hcall (by nofun) reference.actor
  have hheld := h.inFlight reference.actor
  rw [if_pos rfl] at hcount
  -- the call itself is in flight, so that the cell must be held
  by_cases hholder : (s.cell reference.actor).holder.isSome
  · rw [if_pos hholder] at hheld
    refine ⟨hheld, ?_⟩
    cases hfront : (s.cell reference.actor).front with
    | none => rfl
    | some front =>
      rw [h.free reference.actor (by rw [hfront]; rfl)] at hholder
      cases hholder
  · rw [if_neg hholder] at hheld
    omega

/-! ### Turns that end and start no fetch -/

/-- A change that leaves fronts, holders and fetches alone keeps the invariant, if calls
    that finish with a front take that of their cell. -/
theorem frame (h : Flight s history) (hfront : ∀ a, (t.cell a).front = (s.cell a).front)
    (hholder : ∀ a, (t.cell a).holder = (s.cell a).holder)
    (hinFlight : ∀ a, t.inFlight a = s.inFlight a) (hfetches : t.fetches = s.fetches)
    (hshared : ∀ call ∈ t.calls, ∀ shared, call.stage = .finished (.ok shared) →
      call ∈ s.calls ∨ (s.cell call.reference.actor).front = some shared) :
    Flight t history where
  inFlight := fun a => by rw [hinFlight, hholder, h.inFlight]
  free := fun a ha => by
    rw [hholder]
    exact h.free a (hfront a ▸ ha)
  balance := fun a => by
    unfold State.fetchCount
    rw [hfetches, hfront, hinFlight]
    exact h.balance a
  cached := fun a => by rw [hfront, h.cached]
  shared := fun call hmem shared hstage => by
    rw [hfront]
    rcases hshared call hmem shared hstage with hbefore | hfound
    · exact h.shared call hbefore shared hstage
    · exact hfound

theorem enter (h : Flight s history) (reference : Reference) :
    Flight { s with calls := s.calls ++ [(⟨reference, .waiting⟩ : Call)] } history := by
  refine h.frame (fun _ => rfl) (fun _ => rfl) (fun a => ?_) rfl ?_
  · simp [State.inFlight, List.countP_append, Call.fetches]
  · intro call hmem shared hstage
    rcases List.mem_append.1 hmem with hmem | hmem
    · exact .inl hmem
    · rw [List.mem_singleton.1 hmem] at hstage
      cases hstage

theorem line (h : Flight s history) (actor : ActorId) (queue : List Nat) :
    Flight (s.setCell actor { s.cell actor with queue := queue }) history := by
  have hfront : ∀ a, ((s.setCell actor { s.cell actor with queue := queue }).cell a).front =
      (s.cell a).front := keeps_setCell Cell.front rfl
  have hholder : ∀ a, ((s.setCell actor { s.cell actor with queue := queue }).cell a).holder =
      (s.cell a).holder := keeps_setCell Cell.holder rfl
  exact h.frame hfront hholder (fun _ => rfl) rfl (fun _ hmem _ _ => .inl hmem)

/-- A call that waits and does not fetch next keeps the invariant, if it takes no front but
    that of its cell. -/
theorem settle (h : Flight s history) {stage : Stage}
    (hcall : s.calls[id]? = some ⟨reference, .waiting⟩) (hstage : stage ≠ .fetching)
    (hshared : ∀ shared, stage = .finished (.ok shared) →
      (s.cell reference.actor).front = some shared) :
    Flight (s.setStage id stage) history := by
  refine h.frame (fun _ => rfl) (fun _ => rfl)
    (inFlight_setStage_of_ne hcall (by nofun) hstage) rfl ?_
  intro call hmem shared hfinished
  rcases mem_calls_setStage hmem with hmem | ⟨before, hbefore, rfl⟩
  · exact .inl hmem
  · rw [hcall] at hbefore
    cases hbefore
    exact .inr (hshared shared hfinished)

/-! ### Turns that start and end fetches -/

theorem hold (h : Flight s history) (hcall : s.calls[id]? = some ⟨reference, .waiting⟩)
    (hfront : (s.cell reference.actor).front = none)
    (hholder : (s.cell reference.actor).holder = none) (queue : List Nat) :
    Flight (s.hold id reference.actor queue) history := by
  have hflight : ∀ a, (s.hold id reference.actor queue).inFlight a =
      s.inFlight a + (if reference.actor = a then 1 else 0) := inFlight_setStage_fetching hcall
  have hself : (s.hold id reference.actor queue).cell reference.actor =
      { s.cell reference.actor with holder := some id, queue := queue } :=
    cell_setCell_self s reference.actor _
  have hother : ∀ a, a ≠ reference.actor → (s.hold id reference.actor queue).cell a = s.cell a :=
    fun a ha => cell_setCell_ne s _ ha
  have hfronts : ∀ a, ((s.hold id reference.actor queue).cell a).front = (s.cell a).front :=
    keeps_setCell Cell.front rfl
  constructor
  case inFlight =>
    intro a
    rw [hflight, h.inFlight]
    by_cases ha : a = reference.actor
    · subst ha; simp [hself, hholder]
    · simp [hother a ha, Ne.symm ha]
  case free =>
    intro a hsome
    rw [hfronts] at hsome
    have ha : a ≠ reference.actor := ne_of_front hfront hsome
    rw [hother a ha]
    exact h.free a hsome
  case balance =>
    intro a
    have hbalance := h.balance a
    -- the fetch is counted twice: among the started ones and among those in flight
    rw [fetchCount_hold, hflight, hfronts]
    omega
  case cached => exact fun a => by rw [hfronts, h.cached]
  case shared =>
    intro call hmem shared hfinished
    rw [hfronts]
    rcases mem_calls_setStage (s := s.setCell reference.actor _) hmem with
      hmem | ⟨before, hbefore, rfl⟩
    · exact h.shared call hmem shared hfinished
    · cases hfinished

/-- What the end of a fetch leaves: the cell of its actor free, and one fetch less in
    flight. -/
structure Ended (s : State) (id : Nat) (reference : Reference) (stage : Stage) (cell : Cell)
    (t : State) : Prop where
  fetching : s.calls[id]? = some ⟨reference, .fetching⟩
  ended : stage ≠ .fetching
  free : cell.holder = none
  calls : t.calls = (s.setStage id stage).calls
  fetches : t.fetches = s.fetches
  self : t.cell reference.actor = cell
  other : ∀ a, a ≠ reference.actor → t.cell a = s.cell a

section
variable {stage : Stage} {cell : Cell}

theorem ended_setCell (hcall : s.calls[id]? = some ⟨reference, .fetching⟩)
    (hstage : stage ≠ .fetching) (hfree : cell.holder = none) :
    Ended s id reference stage cell ((s.setCell reference.actor cell).setStage id stage) where
  fetching := hcall
  ended := hstage
  free := hfree
  calls := rfl
  fetches := rfl
  self := cell_setCell_self s reference.actor cell
  other := fun _ ha => cell_setCell_ne s cell ha

/-- The number of fronts made is beside the point. -/
theorem Ended.withMade {made : Nat} (h : Ended s id reference stage cell t) :
    Ended s id reference stage cell { t with made := made } := ⟨h.1, h.2, h.3, h.4, h.5, h.6, h.7⟩

theorem Ended.inFlight_add (hended : Ended s id reference stage cell t) (actor : ActorId) :
    t.inFlight actor + (if reference.actor = actor then 1 else 0) = s.inFlight actor := by
  rw [State.inFlight, hended.calls]
  exact inFlight_setStage_ended hended.fetching hended.ended actor

theorem Ended.inFlight (hended : Ended s id reference stage cell t) (h : Flight s history)
    (actor : ActorId) : t.inFlight actor = if (t.cell actor).holder.isSome then 1 else 0 := by
  have hcount := hended.inFlight_add actor
  by_cases ha : actor = reference.actor
  · subst ha
    have hone := (h.of_fetching hended.fetching).1
    rw [if_pos rfl] at hcount
    rw [hended.self, hended.free, if_neg (by simp)]
    omega
  · rw [if_neg (Ne.symm ha)] at hcount
    rw [hended.other actor ha, ← h.inFlight]
    exact hcount

theorem Ended.holder_eq_none (hended : Ended s id reference stage cell t) (h : Flight s history)
    (actor : ActorId) (hfront : (t.cell actor).front.isSome) : (t.cell actor).holder = none := by
  by_cases ha : actor = reference.actor
  · rw [ha, hended.self, hended.free]
  · rw [hended.other actor ha] at hfront ⊢
    exact h.free actor hfront

end

theorem succeed (h : Flight s history) {shared : Shared Front} {cell : Cell}
    (hended : Ended s id reference (.finished (.ok shared)) cell t)
    (hfront : cell.front = some shared) : Flight t (history ++ [(reference.actor, .succeeded)]) := by
  obtain ⟨hone, hnone⟩ := h.of_fetching hended.fetching
  constructor
  case inFlight => exact hended.inFlight h
  case free => exact hended.holder_eq_none h
  case balance =>
    intro a
    have hbalance := h.balance a
    have hcount := hended.inFlight_add a
    unfold State.fetchCount at hbalance ⊢
    rw [hended.fetches, List.count_append, List.count_append]
    by_cases ha : a = reference.actor
    · subst ha
      -- one fetch less in flight, but one front more
      rw [if_pos rfl] at hcount
      rw [hnone] at hbalance
      rw [hended.self, hfront]
      simp at hbalance ⊢
      omega
    · rw [if_neg (Ne.symm ha)] at hcount
      rw [hended.other a ha]
      simp [Ne.symm ha]
      omega
  case cached =>
    intro a
    by_cases ha : a = reference.actor
    · simp [ha, hended.self, hfront]
    · simp [hended.other a ha, h.cached, ha]
  case shared =>
    intro call hmem found hfinished
    rw [hended.calls] at hmem
    rcases mem_calls_setStage hmem with hmem | ⟨before, hbefore, rfl⟩
    · -- no earlier call can have finished with a front of this actor
      have hfound := h.shared call hmem found hfinished
      have ha : call.reference.actor ≠ reference.actor :=
        ne_of_front hnone (by rw [hfound]; rfl)
      rw [hended.other _ ha]
      exact hfound
    · rw [hended.fetching] at hbefore
      cases hbefore
      cases hfinished
      rw [hended.self, hfront]

theorem release (h : Flight s history) {stage : Stage} {ending : Ending} {cell : Cell}
    (hended : Ended s id reference stage cell t)
    (hfront : cell.front = (s.cell reference.actor).front) (hstage : stage.Fruitless)
    (hending : ending ≠ .succeeded) : Flight t (history ++ [(reference.actor, ending)]) := by
  have hfronts : ∀ a, (t.cell a).front = (s.cell a).front := by
    intro a
    by_cases ha : a = reference.actor
    · rw [ha, hended.self, hfront]
    · rw [hended.other a ha]
  constructor
  case inFlight => exact hended.inFlight h
  case free => exact hended.holder_eq_none h
  case balance =>
    intro a
    have hbalance := h.balance a
    have hcount := hended.inFlight_add a
    unfold State.fetchCount at hbalance ⊢
    rw [hended.fetches, hfronts, List.count_append, List.count_append]
    by_cases ha : a = reference.actor
    · subst ha
      -- one fetch less in flight, but one ending more without a front
      rw [if_pos rfl] at hcount
      cases ending with
      | succeeded => exact absurd rfl hending
      | failed | abandoned => simp; omega
    · rw [if_neg (Ne.symm ha)] at hcount
      simp [Ne.symm ha]
      omega
  case cached =>
    intro a
    simp [hfronts, h.cached, hending.symm]
  case shared =>
    intro call hmem found hfinished
    rw [hended.calls] at hmem
    rw [hfronts]
    rcases mem_calls_setStage hmem with hmem | ⟨before, -, rfl⟩
    · exact h.shared call hmem found hfinished
    · simp only at hfinished
      rw [hfinished] at hstage
      exact hstage.elim

/-! ### Runs -/

theorem turn {ended : History} (h : Flight s history) (hturn : Turn limits s ended t) :
    Flight t (history ++ ended) := by
  cases hturn with
  | enter reference => exact (List.append_nil history).symm ▸ h.enter reference
  | line actor queue => exact (List.append_nil history).symm ▸ h.line actor queue
  | share hcall hfront =>
    refine (List.append_nil history).symm ▸ h.settle hcall (by nofun) ?_
    intro shared hshared
    cases hshared
    exact hfront
  | hold queue hcall hfront hholder =>
    exact (List.append_nil history).symm ▸ h.hold hcall hfront hholder queue
  | leave hcall hstage =>
    refine (List.append_nil history).symm ▸ h.settle hcall (by rintro rfl; exact hstage) ?_
    rintro shared rfl
    exact hstage.elim
  | succeed shared hcall =>
    exact h.succeed (ended_setCell hcall (by nofun) rfl).withMade rfl
  | release hcall hstage hending =>
    exact h.release (ended_setCell hcall (by rintro rfl; exact hstage) rfl) rfl hstage hending

theorem turns {ended : History} (h : Flight s history) (hturns : Turns limits s ended t) :
    Flight t (history ++ ended) := by
  induction hturns with
  | refl => exact (List.append_nil history).symm ▸ h
  | step _ hturn ih => exact List.append_assoc _ _ _ ▸ ih.turn hturn

/-- Runs preserve the invariant. -/
theorem run {ended : History} (h : Flight s history) (hrun : Run limits s ended t) :
    Flight t (history ++ ended) := by
  induction hrun with
  | refl => exact (List.append_nil history).symm ▸ h
  | step _ hstep ih => exact List.append_assoc _ _ _ ▸ ih.turns (turns_of_step? hstep)

/-! ### Fronts stay -/

/-- A turn leaves a front in its cell and starts no fetch of its actor. -/
theorem front_turn {ended : History} (h : Flight s history) (hturn : Turn limits s ended t)
    {front : Shared Front} (hfront : (s.cell actor).front = some front) :
    (t.cell actor).front = some front ∧ t.fetchCount actor = s.fetchCount actor := by
  have hsome : (s.cell actor).front.isSome := by rw [hfront]; rfl
  cases hturn with
  | enter | share | leave => exact ⟨hfront, rfl⟩
  | line other queue =>
    refine ⟨Eq.trans ?_ hfront, rfl⟩
    exact keeps_setCell Cell.front (by rfl) actor
  | @hold id reference queue hcall hnone hholder =>
    -- only a cell without a front is ever held
    have ha : actor ≠ reference.actor := ne_of_front hnone hsome
    have hcell := cell_setCell_ne s { s.cell reference.actor with holder := some id, queue := queue } ha
    refine ⟨(congrArg Cell.front hcell).trans hfront, ?_⟩
    rw [fetchCount_hold, if_neg (Ne.symm ha), Nat.add_zero]
  | @succeed id reference shared hcall =>
    have ha : actor ≠ reference.actor := ne_of_front (h.of_fetching hcall).2 hsome
    have hcell := cell_setCell_ne s
      { s.cell reference.actor with holder := none, front := some shared } ha
    exact ⟨(congrArg Cell.front hcell).trans hfront, rfl⟩
  | @release id reference stage ending hcall hstage hending =>
    refine ⟨Eq.trans ?_ hfront, rfl⟩
    exact keeps_setCell Cell.front (by rfl) actor

theorem front_turns {ended : History} (h : Flight s history) (hturns : Turns limits s ended t)
    {front : Shared Front} (hfront : (s.cell actor).front = some front) :
    (t.cell actor).front = some front ∧ t.fetchCount actor = s.fetchCount actor := by
  induction hturns with
  | refl => exact ⟨hfront, rfl⟩
  | step hbefore hturn ih =>
    obtain ⟨hkept, hcount⟩ := ih
    obtain ⟨hkept', hcount'⟩ := (h.turns hbefore).front_turn hturn hkept
    exact ⟨hkept', hcount'.trans hcount⟩

/-- A run leaves a front in its cell and starts no fetch of its actor. -/
theorem front_run {ended : History} (h : Flight s history) (hrun : Run limits s ended t)
    {front : Shared Front} (hfront : (s.cell actor).front = some front) :
    (t.cell actor).front = some front ∧ t.fetchCount actor = s.fetchCount actor := by
  induction hrun with
  | refl => exact ⟨hfront, rfl⟩
  | step hbefore hstep ih =>
    obtain ⟨hkept, hcount⟩ := ih
    obtain ⟨hkept', hcount'⟩ := (h.run hbefore).front_turns (turns_of_step? hstep) hkept
    exact ⟨hkept', hcount'.trans hcount⟩

end Flight

/-! ### Actors with fronts -/

/-- The actors with a fetch that succeeded. -/
def successes (history : History) : Finset ActorId :=
  ((history.filter fun ended => ended.2 = .succeeded).map Prod.fst).toFinset

theorem mem_successes : actor ∈ successes history ↔ (actor, .succeeded) ∈ history := by
  simp [successes]

/-- The actors whose cell has a front. -/
theorem mem_cached_iff : actor ∈ (s.cells.entries.filter fun entry => entry.2.front.isSome).map
    Prod.fst ↔ (s.cell actor).front.isSome := by
  constructor
  · intro h
    obtain ⟨⟨key, cell⟩, hentry, rfl⟩ := List.mem_map.1 h
    obtain ⟨hmem, hfront⟩ := List.mem_filter.1 hentry
    have hget : s.cells.get? key = some cell := OrderedMap.get?_eq_some_iff.2 hmem
    rw [State.cell, hget]
    exact hfront
  · intro h
    cases hget : s.cells.get? actor with
    | none =>
      rw [State.cell, hget] at h
      cases h
    | some cell =>
      rw [State.cell, hget] at h
      exact List.mem_map.2 ⟨(actor, cell),
        List.mem_filter.2 ⟨OrderedMap.get?_eq_some_iff.1 hget, h⟩, rfl⟩

theorem cachedCount_eq (h : Flight s history) : s.cachedCount = (successes history).card := by
  have hnodup : ((s.cells.entries.filter fun entry => entry.2.front.isSome).map Prod.fst).Nodup :=
    s.cells.nodup.sublist (List.filter_sublist.map Prod.fst)
  have hset : successes history =
      ((s.cells.entries.filter fun entry => entry.2.front.isSome).map Prod.fst).toFinset := by
    ext actor
    rw [mem_successes, List.mem_toFinset, mem_cached_iff, h.cached]
  rw [hset, List.toFinset_card_of_nodup hnodup, List.length_map, ← List.countP_eq_length_filter]
  rfl

/-- In every run each actor has at most one fetch in flight; its fetches are those that
    failed, were abandoned, or are in flight, and one more exactly if its front is cached;
    from then on it is never fetched again, and its calls that finish with a front finish
    with that one; and as many fronts are cached as actors had a fetch that succeeded. -/
theorem single_flight (hrun : Run limits {} history s) :
    (∀ actor, s.inFlight actor ≤ 1) ∧
    (∀ actor, s.fetchCount actor =
      history.count (actor, .failed) + history.count (actor, .abandoned) + s.inFlight actor +
        if (s.cell actor).front.isSome then 1 else 0) ∧
    (∀ actor front, (s.cell actor).front = some front → ∀ later t, Run limits s later t →
      t.fetchCount actor = s.fetchCount actor ∧
      ∀ call ∈ t.calls, call.reference.actor = actor →
        ∀ shared, call.stage = .finished (.ok shared) → shared = front) ∧
    s.cachedCount = (successes history).card := by
  have hflight : Flight s history := by simpa using Flight.start.run hrun
  refine ⟨fun actor => ?_, hflight.balance, ?_, cachedCount_eq hflight⟩
  · rw [hflight.inFlight actor]
    split <;> omega
  · intro actor front hfront later t hlater
    obtain ⟨hkept, hcount⟩ := hflight.front_run hlater hfront
    refine ⟨hcount, ?_⟩
    intro call hmem hactor shared hfinished
    have hfound := (hflight.run hlater).shared call hmem shared hfinished
    rw [hactor, hkept] at hfound
    exact (Option.some.inj hfound).symm

/-- Two calls for one symbol: the fetch of the first fails, that of the second is dropped,
    and a third fetches the symbol. -/
theorem exists_run_single_flight : ∃ history s, Run {} {} history s ∧
    s.fetchCount ⟨"a"⟩ = 3 ∧ history = [(⟨"a"⟩, .failed), (⟨"a"⟩, .abandoned), (⟨"a"⟩, .succeeded)] ∧
    (∀ actor, s.inFlight actor ≤ 1) ∧ s.cachedCount = (successes history).card := by
  have h₁ := @Run.step {} {} _ _ _ (.call ⟨⟨"a"⟩, .symbol⟩) .refl rfl
  have h₂ := @Run.step {} {} _ _ _ (.call ⟨⟨"a"⟩, .symbol⟩) h₁ rfl
  have h₃ := @Run.step {} {} _ _ _ (.reply 0 (.failed (.unavailable ⟨"a"⟩ "gone"))) h₂ rfl
  have h₄ := @Run.step {} {} _ _ _ (.resume 1) h₃ rfl
  have h₅ := @Run.step {} {} _ _ _ (.drop 1) h₄ rfl
  have h₆ := @Run.step {} {} _ _ _ (.call ⟨⟨"a"⟩, .symbol⟩) h₅ rfl
  have h₇ := @Run.step {} {} _ _ _ (.reply 2 (.grip (.symbol ⟨"a"⟩ none))) h₆ rfl
  obtain ⟨hflight, -, -, hcached⟩ := single_flight h₇
  exact ⟨_, _, h₇, rfl, rfl, hflight, hcached⟩

end Console.SingleFlight
