import Console.Proofs.OrderedMap
import Console.SingleFlight.State

/-! # Runs of single flight

    A run is any sequence of moves, with the fetches that it ended and how each of them
    ended. Every move is made of one to three turns, each of which changes one thing
    (`turns_of_step?`): a call enters, a line changes, a call shares a front, holds the
    cell, or gives up, and a fetch succeeds or ends without a front.

    - `Run`: sequences of moves from a state, with the history of ended fetches,
    - `Turn`, `Turns`: single turns and sequences of them,
    - `State.inFlight`: the fetches that have not ended, counted by their calls.
-/

namespace Console.SingleFlight

/-! ### Histories -/

/-- How a fetch ends. -/
inductive Ending where
  | succeeded
  /-- The source failed, did not know the actor, or knew it as another type. -/
  | failed
  /-- The call that fetched was dropped. -/
  | abandoned
  deriving DecidableEq

/-- The fetches that have ended, by actor and ending, in order. -/
abbrev History : Type := List (ActorId × Ending)

/-- The fetch that a move ends. -/
def State.ending? (s : State) : Move → Option (ActorId × Ending)
  | .reply id reply =>
    match s.calls[id]? with
    | some ⟨reference, .fetching⟩ =>
      match reply.judge reference with
      | .ok _ => some (reference.actor, .succeeded)
      | .error _ => some (reference.actor, .failed)
    | _ => none
  | .drop id =>
    match s.calls[id]? with
    | some ⟨reference, .fetching⟩ => some (reference.actor, .abandoned)
    | _ => none
  | _ => none

/-- The states that sequences of moves lead to from `s`, with the fetches ended on the way. -/
inductive Run (limits : Limits) (s : State) : History → State → Prop where
  | refl : Run limits s [] s
  | step {history : History} {t u : State} {move : Move} :
      Run limits s history t → t.step? limits move = some u →
      Run limits s (history ++ (t.ending? move).toList) u

/-- The reachable states are those of the runs from the start. -/
theorem reachable_iff_run {limits : Limits} {s : State} :
    Reachable limits s ↔ ∃ history, Run limits {} history s := by
  constructor
  · intro h
    induction h with
    | start => exact ⟨[], .refl⟩
    | step _ hstep ih =>
      obtain ⟨history, hrun⟩ := ih
      exact ⟨_, .step hrun hstep⟩
  · rintro ⟨history, hrun⟩
    induction hrun with
    | refl => exact .start
    | step _ hstep ih => exact .step ih hstep

/-! ### Fetches in flight -/

/-- Whether a call is fetching the grip of an actor. -/
def Call.fetches (call : Call) (actor : ActorId) : Bool :=
  match call.stage with
  | .fetching => call.reference.actor = actor
  | _ => false

/-- The number of calls that are fetching the grip of an actor. -/
def State.inFlight (s : State) (actor : ActorId) : Nat := s.calls.countP (·.fetches actor)

/-! ### Turns -/

/-- Says that a call at this stage has ended without a front. -/
def Stage.Fruitless : Stage → Prop
  | .finished (.error _) => True
  | .dropped _ => True
  | _ => False

theorem Stage.fruitless_error (fault : Fault) : (Stage.finished (.error fault)).Fruitless := trivial

theorem Stage.fruitless_dropped (fetched : Bool) : (Stage.dropped fetched).Fruitless := trivial

/-- A single change of the state, with the fetch that it ends. -/
inductive Turn (limits : Limits) (s : State) : History → State → Prop where
  /-- A call enters. -/
  | enter (reference : Reference) :
      Turn limits s [] { s with calls := s.calls ++ [(⟨reference, .waiting⟩ : Call)] }
  /-- The line of a cell changes. -/
  | line (actor : ActorId) (queue : List Nat) :
      Turn limits s [] (s.setCell actor { s.cell actor with queue := queue })
  /-- A call that waits finishes with the front of its cell. -/
  | share {id : Nat} {reference : Reference} {shared : Shared Front} :
      s.calls[id]? = some ⟨reference, .waiting⟩ →
      (s.cell reference.actor).front = some shared →
      Turn limits s [] (s.setStage id (.finished (.ok shared)))
  /-- A call that waits holds a free cell and fetches. -/
  | hold {id : Nat} {reference : Reference} (queue : List Nat) :
      s.calls[id]? = some ⟨reference, .waiting⟩ →
      (s.cell reference.actor).front = none → (s.cell reference.actor).holder = none →
      Turn limits s [] (s.hold id reference.actor queue)
  /-- A call that waits gives up. -/
  | leave {id : Nat} {reference : Reference} {stage : Stage} :
      s.calls[id]? = some ⟨reference, .waiting⟩ → stage.Fruitless →
      Turn limits s [] (s.setStage id stage)
  /-- A fetch succeeds, and its front is kept in the cell. -/
  | succeed {id : Nat} {reference : Reference} (shared : Shared Front) :
      s.calls[id]? = some ⟨reference, .fetching⟩ →
      Turn limits s [(reference.actor, .succeeded)]
        { (s.setCell reference.actor
            { s.cell reference.actor with holder := none, front := some shared }).setStage id
              (.finished (.ok shared)) with made := s.made + 1 }
  /-- A fetch ends without a front, and the cell is free again. -/
  | release {id : Nat} {reference : Reference} {stage : Stage} {ending : Ending} :
      s.calls[id]? = some ⟨reference, .fetching⟩ → stage.Fruitless → ending ≠ .succeeded →
      Turn limits s [(reference.actor, ending)]
        ((s.setCell reference.actor { s.cell reference.actor with holder := none }).setStage id
          stage)

/-- Sequences of turns, with the fetches that they end. -/
inductive Turns (limits : Limits) (s : State) : History → State → Prop where
  | refl : Turns limits s [] s
  | step {first second : History} {t u : State} :
      Turns limits s first t → Turn limits t second u → Turns limits s (first ++ second) u

variable {limits : Limits} {s t u : State} {actor : ActorId}

theorem Turn.turns {history : History} (h : Turn limits s history t) : Turns limits s history t :=
  .step .refl h

/-- A turn that ends no fetch can be followed by another. -/
theorem Turn.andThen {history : History} (h : Turn limits s [] t) (h' : Turn limits t history u) :
    Turns limits s history u :=
  .step h.turns h'

/-! ### Cells and calls after a change -/

@[simp] theorem cell_setCell_self (s : State) (actor : ActorId) (cell : Cell) :
    (s.setCell actor cell).cell actor = cell := by
  simp [State.cell, State.setCell]

theorem cell_setCell_ne (s : State) {other : ActorId} (cell : Cell) (h : other ≠ actor) :
    (s.setCell actor cell).cell other = s.cell other := by
  simp [State.cell, State.setCell, OrderedMap.get?_insert_ne s.cells cell h]

/-- What a new cell has in common with the one it replaces, all cells keep. -/
theorem keeps_setCell {β : Type} (field : Cell → β) {cell : Cell}
    (h : field cell = field (s.cell actor)) (other : ActorId) :
    field ((s.setCell actor cell).cell other) = field (s.cell other) := by
  by_cases hother : other = actor
  · subst hother
    rw [cell_setCell_self]
    exact h
  · rw [cell_setCell_ne s cell hother]

/-! ### Moves as turns -/

theorem turns_call (s : State) (reference : Reference) :
    Turns limits s [] (s.call reference) := by
  have henter : Turn limits s [] { s with calls := s.calls ++ [(⟨reference, .waiting⟩ : Call)] } :=
    .enter reference
  have hcall : (s.calls ++ [(⟨reference, .waiting⟩ : Call)])[s.calls.length]? =
      some ⟨reference, .waiting⟩ := List.getElem?_concat_length
  unfold State.call
  simp only
  -- the cell has a front, or is free without a line, or is taken
  split
  · next shared _ _ hcell => exact henter.andThen (.share hcall (by rw [hcell]))
  · next hcell => exact henter.andThen (.hold [] hcall (by rw [hcell]) (by rw [hcell]))
  · exact henter.andThen (.line reference.actor _)

theorem turns_of_resume? {id : Nat} (h : s.resume? id = some t) : Turns limits s [] t := by
  unfold State.resume? at h
  split at h
  · next reference hcall =>
    simp only at h
    split at h
    · next shared _ queue hcell =>
      cases h
      -- the call leaves the line before it finishes
      have hline : Turn limits s [] (s.setCell reference.actor
        { s.cell reference.actor with queue := (s.cell reference.actor).queue.erase id }) := .line _ _
      exact hline.andThen (.share hcall (by rw [cell_setCell_self, hcell]))
    · next next rest hcell =>
      split at h
      · cases h
        exact (Turn.hold rest hcall (by rw [hcell]) (by rw [hcell])).turns
      · cases h
    · cases h
  · cases h

theorem turns_of_reply? {id : Nat} {reply : Reply} (h : s.reply? limits id reply = some t) :
    Turns limits s (s.ending? (.reply id reply)).toList t := by
  unfold State.reply? at h
  split at h
  · next reference hcall =>
    cases hjudge : reply.judge reference with
    | ok grip =>
      simp only [hjudge, Option.some.injEq] at h
      subst h
      simp only [State.ending?, hcall, hjudge]
      exact (Turn.succeed ⟨s.made, Front.ofGrip limits grip⟩ hcall).turns
    | error fault =>
      simp only [hjudge, Option.some.injEq] at h
      subst h
      simp only [State.ending?, hcall, hjudge]
      exact (Turn.release hcall (Stage.fruitless_error fault) (by decide)).turns
  · cases h

theorem turns_of_drop? {id : Nat} (h : s.drop? id = some t) :
    Turns limits s (s.ending? (.drop id)).toList t := by
  unfold State.drop? at h
  split at h
  · next reference hcall =>
    cases h
    have hline : Turn limits s [] (s.setCell reference.actor
      { s.cell reference.actor with queue := (s.cell reference.actor).queue.erase id }) := .line _ _
    simp only [State.ending?, hcall]
    exact hline.andThen (.leave hcall (Stage.fruitless_dropped false))
  · next reference hcall =>
    cases h
    simp only [State.ending?, hcall]
    exact (Turn.release hcall (Stage.fruitless_dropped true) (by decide)).turns
  · cases h

/-- Every move is a sequence of turns. -/
theorem turns_of_step? {move : Move} (h : s.step? limits move = some t) :
    Turns limits s (s.ending? move).toList t := by
  cases move with
  | call reference =>
    cases h
    exact turns_call s reference
  | resume id => exact turns_of_resume? h
  | reply id reply => exact turns_of_reply? h
  | drop id => exact turns_of_drop? h

end Console.SingleFlight
