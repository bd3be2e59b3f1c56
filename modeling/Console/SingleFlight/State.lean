import Console.Resolution.Basic

/-! # Single flight

    Live resolution asks a source for the grip of an actor and makes a front of it. Calls
    for one actor share one cell:

    - a call that finds a front in the cell finishes with it,
    - a call that finds the cell free fetches, and holds the cell until the source replies,
    - a call that finds the cell held waits, first come first served.

    A fetch that fails finishes the call that made it, and no other; the cell is free
    again, and the next call in line fetches anew. A call may be dropped at any time: one
    that waits leaves the line, one that fetches frees its cell.

    `State.step?` makes one move, and `Reachable` says what any sequence of moves leads to.
    The history that a state keeps, its calls and the fetches they started, is what its
    invariants are about.
-/

namespace Console.SingleFlight

/-! ### Replies -/

/-- What a source replies to a fetch. -/
inductive Reply where
  | grip (grip : Grip)
  /-- The source does not know the actor. -/
  | unknown
  /-- The source fails, whatever its fault is. -/
  | failed (fault : Fault)

/-- The grip that a reply describes a reference with, which must be of its type. -/
def Reply.judge (reference : Reference) : Reply → Except Fault Grip
  | .grip described =>
    if described.type = reference.type then .ok described
    else .error (.unresolvable reference)
  | .unknown => .error (.unresolvable reference)
  | .failed fault => .error fault

/-! ### States -/

/-- Where a call stands. -/
inductive Stage where
  | waiting
  | fetching
  | finished (outcome : Except Fault (Shared Front))
  /-- The call was dropped, `fetched` saying whether it was fetching then. -/
  | dropped (fetched : Bool)

/-- A call for the front of a reference. -/
structure Call where
  reference : Reference
  stage : Stage

/-- What the calls for one actor share. -/
structure Cell where
  front : Option (Shared Front) := none
  /-- The call that fetches. -/
  holder : Option Nat := none
  /-- The calls that wait, the next in line first. -/
  queue : List Nat := []

/-- The cells, and the history of calls and fetches. A call is known by its place. -/
structure State where
  cells : OrderedMap ActorId Cell := .empty
  calls : List Call := []
  /-- The actors fetched, in the order in which the fetches started. -/
  fetches : List ActorId := []
  /-- The number of fronts made. -/
  made : Nat := 0

namespace State

/-- The cell of an actor. -/
def cell (s : State) (actor : ActorId) : Cell := (s.cells.get? actor).getD {}

/-- The state with another cell for an actor. -/
def setCell (s : State) (actor : ActorId) (cell : Cell) : State :=
  { s with cells := s.cells.insert actor cell }

/-- The state with a call at another stage. -/
def setStage (s : State) (id : Nat) (stage : Stage) : State :=
  { s with calls := s.calls.modify id fun call => { call with stage := stage } }

/-- How a call ended, if it has. -/
def outcome? (s : State) (id : Nat) : Option (Except Fault (Shared Front)) :=
  match s.calls[id]? with
  | some ⟨_, .finished outcome⟩ => some outcome
  | _ => none

/-- Whether a call is fetching. -/
def isFetching (s : State) (id : Nat) : Bool :=
  match s.calls[id]? with
  | some ⟨_, .fetching⟩ => true
  | _ => false

/-- The number of fetches started for an actor. -/
def fetchCount (s : State) (actor : ActorId) : Nat := s.fetches.count actor

/-- The number of actors whose front has been made. -/
def cachedCount (s : State) : Nat :=
  s.cells.entries.countP fun entry => entry.2.front.isSome

/-! ### Moves -/

/-- Call `id` holds the cell of its actor and fetches. -/
def hold (s : State) (id : Nat) (actor : ActorId) (queue : List Nat) : State :=
  { (s.setCell actor { s.cell actor with holder := some id, queue := queue }).setStage
      id .fetching with fetches := s.fetches ++ [actor] }

/-- A new call. It finishes with the front of its actor, fetches if the cell is free and
    nobody waits, and waits otherwise. -/
def call (s : State) (reference : Reference) : State :=
  let id := s.calls.length
  let s := { s with calls := s.calls ++ [(⟨reference, .waiting⟩ : Call)] }
  let cell := s.cell reference.actor
  match cell with
  | ⟨some shared, _, _⟩ => s.setStage id (.finished (.ok shared))
  -- a free cell with a line belongs to the next in line, not to a new call
  | ⟨none, none, []⟩ => s.hold id reference.actor []
  | _ => s.setCell reference.actor { cell with queue := cell.queue ++ [id] }

/-- A waiting call goes on: with the front that has been made meanwhile, or by fetching if
    the cell is free and the call is next in line. -/
def resume? (s : State) (id : Nat) : Option State :=
  match s.calls[id]? with
  | some ⟨reference, .waiting⟩ =>
    let cell := s.cell reference.actor
    match cell with
    | ⟨some shared, _, _⟩ =>
      some ((s.setCell reference.actor { cell with queue := cell.queue.erase id }).setStage
        id (.finished (.ok shared)))
    | ⟨none, none, next :: rest⟩ =>
      if next = id then some (s.hold id reference.actor rest) else none
    | _ => none
  | _ => none

/-- The source replies to the fetch of call `id`. A front is kept in the cell for good, a
    failure leaves the cell free. -/
def reply? (limits : Limits) (s : State) (id : Nat) (reply : Reply) : Option State :=
  match s.calls[id]? with
  | some ⟨reference, .fetching⟩ =>
    -- the cell is free again whatever the reply
    let cell := { s.cell reference.actor with holder := none }
    match reply.judge reference with
    | .ok grip =>
      let shared : Shared Front := ⟨s.made, Front.ofGrip limits grip⟩
      let s := s.setCell reference.actor { cell with front := some shared }
      some { s.setStage id (.finished (.ok shared)) with made := s.made + 1 }
    | .error fault =>
      some ((s.setCell reference.actor cell).setStage id (.finished (.error fault)))
  | _ => none

/-- An unfinished call is dropped. -/
def drop? (s : State) (id : Nat) : Option State :=
  match s.calls[id]? with
  | some ⟨reference, .waiting⟩ =>
    let cell := s.cell reference.actor
    some ((s.setCell reference.actor { cell with queue := cell.queue.erase id }).setStage
      id (.dropped false))
  | some ⟨reference, .fetching⟩ =>
    let cell := s.cell reference.actor
    some ((s.setCell reference.actor { cell with holder := none }).setStage id (.dropped true))
  | _ => none

end State

/-- A move. -/
inductive Move where
  | call (reference : Reference)
  | resume (id : Nat)
  | reply (id : Nat) (reply : Reply)
  | drop (id : Nat)

namespace State

/-- The state after a move, if the move is possible. -/
def step? (limits : Limits) (s : State) : Move → Option State
  | .call reference => some (s.call reference)
  | .resume id => s.resume? id
  | .reply id reply => s.reply? limits id reply
  | .drop id => s.drop? id

end State

/-- The states that moves lead to from the start. -/
inductive Reachable (limits : Limits) : State → Prop where
  | start : Reachable limits {}
  | step {s t : State} {move : Move} :
      Reachable limits s → s.step? limits move = some t → Reachable limits t

end Console.SingleFlight
