import Console.Proofs.SingleFlight.Run

/-! # What a move changes

    A move concerns one call, a new one or one that has not ended. It changes the stage of
    that call and the cell of its actor, and beyond them only the record of fetches:

    - `Shift`: what each move makes of the call and of the cell,
    - `Effect`: what stays as it is, which is all other calls and cells,
    - `shifts_of_step?`: every possible move is such a shift with such an effect,
    - `Orderly`: what cells and calls have to do with each other in every reachable state.

    What is said of a state call by call and cell by cell is thereby checked shift by
    shift, with the other calls and cells out of the way.
-/

namespace Console.SingleFlight

variable {limits : Limits} {s t : State} {id : Nat} {reference : Reference} {actor : ActorId}

/-! ### Where calls stand -/

/-- Says that call `id` is one for the actor and stands at the stage. -/
def State.Stands (s : State) (actor : ActorId) (stage : Stage) (id : Nat) : Prop :=
  ∃ type, s.calls[id]? = some ⟨⟨actor, type⟩, stage⟩

/-- The outcome of a call that has finished. -/
def Call.outcome? (call : Call) : Option (Except Fault (Shared Front)) :=
  match call.stage with
  | .finished outcome => some outcome
  | _ => none

theorem State.outcome?_eq (s : State) (id : Nat) :
    s.outcome? id = s.calls[id]?.bind Call.outcome? := by
  unfold State.outcome?
  cases h : s.calls[id]? with
  | none => rfl
  | some call =>
    obtain ⟨reference, stage⟩ := call
    cases stage <;> rfl

theorem State.outcome?_eq_some_iff {outcome : Except Fault (Shared Front)} :
    s.outcome? id = some outcome ↔
      ∃ reference, s.calls[id]? = some ⟨reference, .finished outcome⟩ := by
  unfold State.outcome?
  split
  · next reference found hcall => simp [hcall]
  · next hnone =>
    constructor
    · intro h
      cases h
    · rintro ⟨reference, hcall⟩
      exact absurd hcall (hnone reference outcome)

/-! ### Shifts -/

/-- What a move makes of the stage of call `id`, `none` before the call is made, and of the
    cell of its actor. -/
inductive Shift (limits : Limits) (id : Nat) (reference : Reference) :
    Move → Option Stage → Cell → Stage → Cell → Prop where
  /-- A new call finds a front. -/
  | found {shared : Shared Front} {holder : Option Nat} {queue : List Nat} :
      Shift limits id reference (.call reference) none ⟨some shared, holder, queue⟩
        (.finished (.ok shared)) ⟨some shared, holder, queue⟩
  /-- A new call finds the cell free and nobody waiting. -/
  | first :
      Shift limits id reference (.call reference) none ⟨none, none, []⟩
        .fetching ⟨none, some id, []⟩
  /-- A new call joins the line of a cell that is held or waited for. -/
  | joined {holder : Option Nat} {queue : List Nat} :
      (holder = none → queue ≠ []) →
      Shift limits id reference (.call reference) none ⟨none, holder, queue⟩
        .waiting ⟨none, holder, queue ++ [id]⟩
  /-- A call that waited finds a front. -/
  | served {shared : Shared Front} {holder : Option Nat} {queue : List Nat} :
      Shift limits id reference (.resume id) (some .waiting) ⟨some shared, holder, queue⟩
        (.finished (.ok shared)) ⟨some shared, holder, queue.erase id⟩
  /-- The next call in line finds the cell free. -/
  | next {rest : List Nat} :
      Shift limits id reference (.resume id) (some .waiting) ⟨none, none, id :: rest⟩
        .fetching ⟨none, some id, rest⟩
  /-- A fetch succeeds. -/
  | succeeded {reply : Reply} {grip : Grip} {serial : Nat} {cell : Cell} :
      reply.judge reference = .ok grip →
      Shift limits id reference (.reply id reply) (some .fetching) cell
        (.finished (.ok ⟨serial, Front.ofGrip limits grip⟩))
        { cell with holder := none, front := some ⟨serial, Front.ofGrip limits grip⟩ }
  /-- A fetch fails. -/
  | failed {reply : Reply} {fault : Fault} {cell : Cell} :
      reply.judge reference = .error fault →
      Shift limits id reference (.reply id reply) (some .fetching) cell
        (.finished (.error fault)) { cell with holder := none }
  /-- A call that waits is dropped. -/
  | left {cell : Cell} :
      Shift limits id reference (.drop id) (some .waiting) cell
        (.dropped false) { cell with queue := cell.queue.erase id }
  /-- A call that fetches is dropped. -/
  | abandoned {cell : Cell} :
      Shift limits id reference (.drop id) (some .fetching) cell
        (.dropped true) { cell with holder := none }

/-! ### Effects -/

/-- Whether a call at this stage is fetching. -/
def Stage.isFetching : Stage → Bool
  | fetching => true
  | _ => false

/-- Says that `t` is `s` with call `id` at another stage and its actor's cell replaced. A
    call that begins to fetch is recorded as a fetch. -/
structure Effect (s : State) (id : Nat) (reference : Reference) (before : Option Stage)
    (after : Stage) (cell : Cell) (t : State) : Prop where
  place : id ≤ s.calls.length
  before : s.calls[id]? = before.map (Call.mk reference)
  calls : t.calls = s.calls.take id ++ ⟨reference, after⟩ :: s.calls.drop (id + 1)
  cell : t.cell reference.actor = cell
  cells : ∀ actor, actor ≠ reference.actor → t.cell actor = s.cell actor
  fetches : t.fetches = s.fetches ++ if after.isFetching then [reference.actor] else []

/-- A new call takes the place after all others. -/
theorem effect_enter {after : Stage} {cell : Cell}
    (hcalls : t.calls = s.calls ++ [⟨reference, after⟩]) (hcell : t.cell reference.actor = cell)
    (hcells : ∀ actor, actor ≠ reference.actor → t.cell actor = s.cell actor)
    (hfetches : t.fetches = s.fetches ++ if after.isFetching then [reference.actor] else []) :
    Effect s s.calls.length reference none after cell t where
  place := Nat.le_refl _
  before := by simp
  calls := by rw [hcalls, List.take_length, List.drop_of_length_le (Nat.le_succ _)]
  cell := hcell
  cells := hcells
  fetches := hfetches

/-- A call that has not ended keeps its place. -/
theorem effect_setStage {before after : Stage} {cell : Cell}
    (hcall : s.calls[id]? = some ⟨reference, before⟩)
    (hcalls : t.calls = (s.setStage id after).calls) (hcell : t.cell reference.actor = cell)
    (hcells : ∀ actor, actor ≠ reference.actor → t.cell actor = s.cell actor)
    (hfetches : t.fetches = s.fetches ++ if after.isFetching then [reference.actor] else []) :
    Effect s id reference (some before) after cell t where
  place := Nat.le_of_lt (List.getElem?_eq_some_iff.1 hcall).1
  before := hcall
  calls := by
    obtain ⟨hlt, hget⟩ := List.getElem?_eq_some_iff.1 hcall
    rw [hcalls, State.setStage, List.modify_eq_take_cons_drop hlt, hget]
  cell := hcell
  cells := hcells
  fetches := hfetches

theorem effect_setCell {before after : Stage} (hcall : s.calls[id]? = some ⟨reference, before⟩)
    (cell : Cell) (hafter : after.isFetching = false) :
    Effect s id reference (some before) after cell
      ((s.setCell reference.actor cell).setStage id after) := by
  refine effect_setStage hcall rfl (cell_setCell_self s reference.actor cell) ?_ ?_
  · intro actor ha
    exact cell_setCell_ne s cell ha
  · rw [hafter, if_neg Bool.false_ne_true, List.append_nil]
    rfl

namespace Effect

variable {before : Option Stage} {after : Stage} {cell : Cell}

theorem getElem?_self (h : Effect s id reference before after cell t) :
    t.calls[id]? = some ⟨reference, after⟩ := by
  have hlength : (s.calls.take id).length = id := List.length_take_of_le h.place
  rw [h.calls, List.getElem?_append_right (by omega), hlength, Nat.sub_self]
  rfl

theorem outcome?_self {outcome : Except Fault (Shared Front)}
    (h : Effect s id reference before (.finished outcome) cell t) : t.outcome? id = some outcome :=
  State.outcome?_eq_some_iff.2 ⟨reference, h.getElem?_self⟩

theorem getElem?_ne (h : Effect s id reference before after cell t) {other : Nat}
    (hne : other ≠ id) : t.calls[other]? = s.calls[other]? := by
  have hlength : (s.calls.take id).length = id := List.length_take_of_le h.place
  rw [h.calls]
  by_cases hlt : other < id
  · rw [List.getElem?_append_left (by omega), List.getElem?_take_of_lt hlt]
  · -- places after that of the call
    obtain ⟨n, rfl⟩ : ∃ n, other = id + 1 + n := ⟨other - (id + 1), by omega⟩
    rw [List.getElem?_append_right (by omega), hlength,
      show id + 1 + n - id = n + 1 by omega, List.getElem?_cons_succ, List.getElem?_drop]

/-- Where the call of the move stands after it. -/
theorem stands_self (h : Effect s id reference before after cell t) {stage : Stage} :
    t.Stands actor stage id ↔ actor = reference.actor ∧ stage = after := by
  unfold State.Stands
  rw [h.getElem?_self]
  constructor
  · rintro ⟨type, hcall⟩
    cases hcall
    exact ⟨rfl, rfl⟩
  · rintro ⟨rfl, rfl⟩
    exact ⟨reference.type, rfl⟩

theorem stands_ne (h : Effect s id reference before after cell t) {stage : Stage} {other : Nat}
    (hne : other ≠ id) : t.Stands actor stage other ↔ s.Stands actor stage other := by
  unfold State.Stands
  rw [h.getElem?_ne hne]

/-- Where the call of the move stood before it. -/
theorem stood_self (h : Effect s id reference before after cell t) {stage : Stage} :
    s.Stands actor stage id ↔ actor = reference.actor ∧ before = some stage := by
  unfold State.Stands
  rw [h.before]
  cases before with
  | none => simp
  | some stood =>
    constructor
    · rintro ⟨type, hcall⟩
      cases hcall
      exact ⟨rfl, rfl⟩
    · rintro ⟨rfl, hstood⟩
      cases hstood
      exact ⟨reference.type, rfl⟩

/-- What cells say of the calls at one stage stays true, if the new cell says it of the call
    of the move and otherwise says what the old one did. -/
theorem agrees (h : Effect s id reference before after cell t) {stage : Stage}
    (lists : Cell → Nat → Prop)
    (hbefore : ∀ actor other, lists (s.cell actor) other ↔ s.Stands actor stage other)
    (hcell : ∀ other, lists cell other ↔
      if other = id then after = stage else lists (s.cell reference.actor) other)
    (actor : ActorId) (other : Nat) : lists (t.cell actor) other ↔ t.Stands actor stage other := by
  by_cases ha : actor = reference.actor
  · subst ha
    rw [h.cell, hcell]
    by_cases hother : other = id
    · simp [hother, h.stands_self, eq_comm]
    · rw [if_neg hother, h.stands_ne hother, hbefore]
  · -- the cells of other actors speak of other calls
    rw [h.cells actor ha, hbefore]
    by_cases hother : other = id
    · simp [hother, h.stands_self, h.stood_self, ha]
    · rw [h.stands_ne hother]

/-- The calls before the move, with the one that it concerns, if it is there, set apart. -/
theorem calls_before (h : Effect s id reference before after cell t) :
    s.calls = s.calls.take id ++ (before.map (Call.mk reference)).toList ++
      s.calls.drop (id + 1) := by
  have hbefore := h.before
  cases before with
  | none =>
    have hend : s.calls.length ≤ id := List.getElem?_eq_none_iff.1 hbefore
    rw [List.take_of_length_le hend, List.drop_of_length_le (by omega)]
    simp
  | some stage =>
    obtain ⟨hlt, hget⟩ := List.getElem?_eq_some_iff.1 hbefore
    simp [← hget]

/-- Counting calls after a move: all others count as before. -/
theorem countP_calls (h : Effect s id reference before after cell t) (p : Call → Bool) :
    t.calls.countP p + (before.map (Call.mk reference)).toList.countP p =
      s.calls.countP p + [(⟨reference, after⟩ : Call)].countP p := by
  have hbefore := congrArg (List.countP p) h.calls_before
  rw [h.calls]
  simp only [List.countP_append, List.countP_cons, List.countP_nil] at hbefore ⊢
  omega

/-- A new call takes the place after all others. -/
theorem eq_length (h : Effect s id reference none after cell t) : id = s.calls.length :=
  Nat.le_antisymm h.place (List.getElem?_eq_none_iff.1 h.before)

theorem calls_of_new (h : Effect s id reference none after cell t) :
    t.calls = s.calls ++ [⟨reference, after⟩] := by
  rw [h.calls, h.eq_length, List.take_length, List.drop_of_length_le (Nat.le_succ _)]

theorem length_calls_of_old {stage : Stage}
    (h : Effect s id reference (some stage) after cell t) : t.calls.length = s.calls.length := by
  have hbefore := congrArg List.length h.calls_before
  rw [h.calls]
  simp only [List.length_append, List.length_cons, Option.map_some, Option.toList_some,
    List.length_nil] at hbefore ⊢
  omega

/-- The call that came last is still the last. -/
theorem calls_of_last {calls : List Call} {last : Call}
    (h : Effect s calls.length reference before after cell t) (hcalls : s.calls = calls ++ [last]) :
    t.calls = calls ++ [⟨reference, after⟩] := by
  rw [h.calls, hcalls, List.take_left, List.drop_of_length_le (by simp)]

end Effect

/-! ### Moves and their effects -/

theorem modify_append_last {α : Type} (xs : List α) (x : α) (f : α → α) :
    (xs ++ [x]).modify xs.length f = xs ++ [f x] := by
  induction xs with
  | nil => rfl
  | cons y rest ih => simp [ih]

section
variable {shared : Shared Front} {holder : Option Nat} {queue : List Nat}

theorem effect_call_found (h : s.cell reference.actor = ⟨some shared, holder, queue⟩) :
    Effect s s.calls.length reference none (.finished (.ok shared)) ⟨some shared, holder, queue⟩
      (s.call reference) := by
  have hcell : State.cell { s with calls := s.calls ++ [(⟨reference, .waiting⟩ : Call)] }
    reference.actor = ⟨some shared, holder, queue⟩ := h
  simp only [State.call, hcell]
  exact effect_enter (modify_append_last s.calls _ _) h (fun _ _ => rfl) (List.append_nil _).symm

theorem effect_call_first (h : s.cell reference.actor = {}) :
    Effect s s.calls.length reference none .fetching { holder := some s.calls.length }
      (s.call reference) := by
  have hcell : State.cell { s with calls := s.calls ++ [(⟨reference, .waiting⟩ : Call)] }
    reference.actor = ⟨none, none, []⟩ := h
  simp only [State.call, hcell]
  refine effect_enter (modify_append_last s.calls _ _) ?_ ?_ rfl
  · refine (cell_setCell_self _ reference.actor _).trans ?_
    rw [hcell]
  · intro actor ha
    exact cell_setCell_ne _ _ ha

theorem effect_call_joined (h : s.cell reference.actor = ⟨none, holder, queue⟩)
    (htaken : holder = none → queue ≠ []) :
    Effect s s.calls.length reference none .waiting ⟨none, holder, queue ++ [s.calls.length]⟩
      (s.call reference) := by
  have hcell : State.cell { s with calls := s.calls ++ [(⟨reference, .waiting⟩ : Call)] }
    reference.actor = ⟨none, holder, queue⟩ := h
  have hcall : s.call reference = State.setCell
      { s with calls := s.calls ++ [(⟨reference, .waiting⟩ : Call)] } reference.actor
        ⟨none, holder, queue ++ [s.calls.length]⟩ := by
    unfold State.call
    simp only [hcell]
    split
    · next heq => cases heq
    · next heq =>
      cases heq
      exact absurd rfl (htaken rfl)
    · rfl
  rw [hcall]
  exact effect_enter rfl (cell_setCell_self _ reference.actor _)
    (fun _ ha => cell_setCell_ne _ _ ha) (List.append_nil _).symm

theorem exists_resume_served (limits : Limits) (hcall : s.calls[id]? = some ⟨reference, .waiting⟩)
    (hcell : s.cell reference.actor = ⟨some shared, holder, queue⟩) :
    ∃ t, s.step? limits (.resume id) = some t ∧
      Effect s id reference (some .waiting) (.finished (.ok shared))
        ⟨some shared, holder, queue.erase id⟩ t := by
  simp only [State.step?, State.resume?, hcall, hcell]
  exact ⟨_, rfl, effect_setCell hcall _ rfl⟩

theorem exists_resume_next (limits : Limits) {rest : List Nat}
    (hcall : s.calls[id]? = some ⟨reference, .waiting⟩)
    (hcell : s.cell reference.actor = ⟨none, none, id :: rest⟩) :
    ∃ t, s.step? limits (.resume id) = some t ∧
      Effect s id reference (some .waiting) .fetching ⟨none, some id, rest⟩ t := by
  simp only [State.step?, State.resume?, hcall, hcell, if_true]
  refine ⟨_, rfl, effect_setStage hcall rfl ?_ ?_ rfl⟩
  · refine (cell_setCell_self s reference.actor _).trans ?_
    rw [hcell]
  · intro actor ha
    exact cell_setCell_ne s _ ha

end

section
variable {reply : Reply}

theorem exists_reply_ok (limits : Limits) {grip : Grip}
    (hcall : s.calls[id]? = some ⟨reference, .fetching⟩)
    (hjudge : reply.judge reference = .ok grip) :
    ∃ t, s.step? limits (.reply id reply) = some t ∧
      Effect s id reference (some .fetching) (.finished (.ok ⟨s.made, Front.ofGrip limits grip⟩))
        { s.cell reference.actor with
          holder := none, front := some ⟨s.made, Front.ofGrip limits grip⟩ } t := by
  simp only [State.step?, State.reply?, hcall, hjudge]
  exact ⟨_, rfl, effect_setStage hcall rfl (cell_setCell_self s reference.actor _)
    (fun _ ha => cell_setCell_ne s _ ha) (List.append_nil _).symm⟩

theorem exists_reply_error (limits : Limits) {fault : Fault}
    (hcall : s.calls[id]? = some ⟨reference, .fetching⟩)
    (hjudge : reply.judge reference = .error fault) :
    ∃ t, s.step? limits (.reply id reply) = some t ∧
      Effect s id reference (some .fetching) (.finished (.error fault))
        { s.cell reference.actor with holder := none } t := by
  simp only [State.step?, State.reply?, hcall, hjudge]
  exact ⟨_, rfl, effect_setCell hcall _ rfl⟩

/-- A fetch ends with the judgement of the reply, and its cell is free. -/
theorem exists_reply (limits : Limits) (hcall : s.calls[id]? = some ⟨reference, .fetching⟩)
    (reply : Reply) :
    ∃ t outcome, s.step? limits (.reply id reply) = some t ∧
      outcome.map Shared.value = (reply.judge reference).map (Front.ofGrip limits) ∧
      Effect s id reference (some .fetching) (.finished outcome)
        { s.cell reference.actor with
          holder := none, front := outcome.toOption.or (s.cell reference.actor).front } t := by
  cases hjudge : reply.judge reference with
  | ok grip =>
    obtain ⟨t, hstep, heffect⟩ := exists_reply_ok limits hcall hjudge
    exact ⟨t, _, hstep, rfl, heffect⟩
  | error fault =>
    obtain ⟨t, hstep, heffect⟩ := exists_reply_error limits hcall hjudge
    exact ⟨t, _, hstep, rfl, heffect⟩

theorem exists_drop_waiting (limits : Limits) (hcall : s.calls[id]? = some ⟨reference, .waiting⟩) :
    ∃ t, s.step? limits (.drop id) = some t ∧
      Effect s id reference (some .waiting) (.dropped false)
        { s.cell reference.actor with queue := (s.cell reference.actor).queue.erase id } t := by
  simp only [State.step?, State.drop?, hcall]
  exact ⟨_, rfl, effect_setCell hcall _ rfl⟩

theorem exists_drop_fetching (limits : Limits) (hcall : s.calls[id]? = some ⟨reference, .fetching⟩) :
    ∃ t, s.step? limits (.drop id) = some t ∧
      Effect s id reference (some .fetching) (.dropped true)
        { s.cell reference.actor with holder := none } t := by
  simp only [State.step?, State.drop?, hcall]
  exact ⟨_, rfl, effect_setCell hcall _ rfl⟩

end

/-! ### Moves as shifts -/

/-- Says that a move makes `t` of `s` by a shift. -/
def Shifts (limits : Limits) (move : Move) (s t : State) : Prop :=
  ∃ id reference before after cell,
    Shift limits id reference move before (s.cell reference.actor) after cell ∧
      Effect s id reference before after cell t

/-- A possible move that can be such a shift is one. -/
theorem shifts_of_effect {move : Move} {before : Option Stage} {after : Stage} {cell : Cell}
    (hshift : Shift limits id reference move before (s.cell reference.actor) after cell)
    (heffect : ∃ t, s.step? limits move = some t ∧ Effect s id reference before after cell t)
    (h : s.step? limits move = some t) : Shifts limits move s t := by
  obtain ⟨found, hfound, heffect⟩ := heffect
  rw [hfound] at h
  cases h
  exact ⟨id, reference, before, after, cell, hshift, heffect⟩

theorem shifts_call (s : State) (reference : Reference) :
    Shifts limits (.call reference) s (s.call reference) := by
  unfold Shifts
  refine ⟨s.calls.length, reference, none, ?_⟩
  cases hcell : s.cell reference.actor with
  | mk front holder queue =>
    cases front with
    | some shared => exact ⟨_, _, .found, effect_call_found hcell⟩
    | none =>
      by_cases htaken : holder = none → queue ≠ []
      · exact ⟨_, _, .joined htaken, effect_call_joined hcell htaken⟩
      · obtain ⟨rfl, rfl⟩ : holder = none ∧ queue = [] := by simpa using htaken
        exact ⟨_, _, .first, effect_call_first hcell⟩

theorem shifts_of_resume? (h : s.step? limits (.resume id) = some t) :
    Shifts limits (.resume id) s t := by
  have hresume : s.resume? id = some t := h
  unfold State.resume? at hresume
  split at hresume
  · next reference hcall =>
    simp only at hresume
    split at hresume
    · next hcell => exact shifts_of_effect (hcell ▸ .served) (exists_resume_served limits hcall hcell) h
    · next next rest hcell =>
      split at hresume
      · next hnext =>
        subst hnext
        exact shifts_of_effect (hcell ▸ .next) (exists_resume_next limits hcall hcell) h
      · cases hresume
    · cases hresume
  · cases hresume

theorem shifts_of_reply? {reply : Reply} (h : s.step? limits (.reply id reply) = some t) :
    Shifts limits (.reply id reply) s t := by
  have hreply : s.reply? limits id reply = some t := h
  unfold State.reply? at hreply
  split at hreply
  · next reference hcall =>
    cases hjudge : reply.judge reference with
    | ok grip => exact shifts_of_effect (.succeeded hjudge) (exists_reply_ok limits hcall hjudge) h
    | error fault => exact shifts_of_effect (.failed hjudge) (exists_reply_error limits hcall hjudge) h
  · cases hreply

theorem shifts_of_drop? (h : s.step? limits (.drop id) = some t) : Shifts limits (.drop id) s t := by
  have hdrop : s.drop? id = some t := h
  unfold State.drop? at hdrop
  split at hdrop
  · next hcall => exact shifts_of_effect .left (exists_drop_waiting limits hcall) h
  · next hcall => exact shifts_of_effect .abandoned (exists_drop_fetching limits hcall) h
  · cases hdrop

/-- Every possible move shifts one call and the cell of its actor. -/
theorem shifts_of_step? {move : Move} (h : s.step? limits move = some t) :
    Shifts limits move s t := by
  cases move with
  | call reference =>
    cases h
    exact shifts_call s reference
  | resume id => exact shifts_of_resume? h
  | reply id reply => exact shifts_of_reply? h
  | drop id => exact shifts_of_drop? h

/-! ### Holders and lines -/

/-- Says that cells agree with their calls: the holder of a cell is the call that fetches
    its actor, and its line are the calls that wait, in the order in which they were made. -/
structure Orderly (s : State) : Prop where
  holder : ∀ actor id, (s.cell actor).holder = some id ↔ s.Stands actor .fetching id
  queue : ∀ actor id, id ∈ (s.cell actor).queue ↔ s.Stands actor .waiting id
  sorted : ∀ actor, (s.cell actor).queue.Pairwise (· < ·)

section
variable {move : Move} {before : Option Stage} {after : Stage} {cell cell' : Cell}

/-- The call of a shift holds the cell afterwards if it fetches; any other call holds it if
    it did before. -/
theorem Shift.holder_iff (h : Shift limits id reference move before cell after cell')
    (hbefore : cell.holder = some id ↔ before = some .fetching) (other : Nat) :
    cell'.holder = some other ↔ if other = id then after = .fetching else cell.holder = some other := by
  by_cases hother : other = id
  · subst hother
    rw [if_pos rfl]
    cases h <;> simp_all
  · rw [if_neg hother]
    cases h <;> simp_all [Ne.symm hother]

/-- The call of a shift is in line afterwards if it waits; any other call is if it was
    before. -/
theorem Shift.mem_queue_iff (h : Shift limits id reference move before cell after cell')
    (hbefore : id ∈ cell.queue ↔ before = some .waiting) (hnodup : cell.queue.Nodup)
    (other : Nat) :
    other ∈ cell'.queue ↔ if other = id then after = .waiting else other ∈ cell.queue := by
  by_cases hother : other = id
  · subst hother
    rw [if_pos rfl]
    cases h <;> simp_all [hnodup.mem_erase_iff]
  · rw [if_neg hother]
    cases h <;> simp_all [List.mem_erase_of_ne]

/-- A line stays in order, because a new call comes after all others. -/
theorem Shift.sorted (h : Shift limits id reference move before cell after cell')
    (hnew : before = none → ∀ other ∈ cell.queue, other < id)
    (hsorted : cell.queue.Pairwise (· < ·)) : cell'.queue.Pairwise (· < ·) := by
  cases h with
  | found | first | succeeded | failed | abandoned => exact hsorted
  | served | left => exact hsorted.sublist List.erase_sublist
  | next => exact hsorted.of_cons
  | joined =>
    refine List.pairwise_append.2 ⟨hsorted, List.pairwise_singleton _ _, ?_⟩
    intro other hother last hlast
    rw [List.mem_singleton.1 hlast]
    exact hnew rfl other hother

end

namespace Orderly

theorem start : Orderly {} where
  holder := fun _ _ => by simp [State.cell, State.Stands]
  queue := fun _ _ => by simp [State.cell, State.Stands]
  sorted := fun _ => List.Pairwise.nil

/-- A call in line has been made. -/
theorem lt_length (h : Orderly s) (hmem : id ∈ (s.cell actor).queue) : id < s.calls.length := by
  obtain ⟨type, hcall⟩ := (h.queue actor id).1 hmem
  exact (List.getElem?_eq_some_iff.1 hcall).1

theorem step {move : Move} (h : Orderly s) (hstep : s.step? limits move = some t) : Orderly t := by
  obtain ⟨id, reference, before, after, cell, hshift, heffect⟩ := shifts_of_step? hstep
  have hholder : (s.cell reference.actor).holder = some id ↔ before = some .fetching := by
    rw [h.holder, heffect.stood_self]
    simp
  have hqueue : id ∈ (s.cell reference.actor).queue ↔ before = some .waiting := by
    rw [h.queue, heffect.stood_self]
    simp
  have hsorted := h.sorted reference.actor
  have hnodup : (s.cell reference.actor).queue.Nodup := hsorted.imp Nat.ne_of_lt
  constructor
  case holder => exact heffect.agrees (·.holder = some ·) h.holder (hshift.holder_iff hholder)
  case queue =>
    exact heffect.agrees (fun cell id => id ∈ cell.queue) h.queue
      (hshift.mem_queue_iff hqueue hnodup)
  case sorted =>
    intro actor
    by_cases ha : actor = reference.actor
    · subst ha
      rw [heffect.cell]
      refine hshift.sorted ?_ hsorted
      rintro rfl other hother
      rw [heffect.eq_length]
      exact h.lt_length hother
    · rw [heffect.cells actor ha]
      exact h.sorted actor

end Orderly

/-- In every reachable state the cells agree with their calls. -/
theorem orderly_of_reachable (h : Reachable limits s) : Orderly s := by
  induction h with
  | start => exact .start
  | step _ hstep ih => exact ih.step hstep

end Console.SingleFlight
