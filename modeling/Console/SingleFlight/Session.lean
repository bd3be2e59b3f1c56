import Console.SingleFlight.State
import Console.Views

/-! # Live sessions

    A session resolves references through a source whose replies may take time. Time runs
    in rounds: in the first the calls start in order, each going as far as it can, and in
    every further round the unfinished calls go on in the same order. A fetch is ready
    after as many further rounds as its answer delays it.

    Calls are joined in one of three ways (`Join`). Where the join fails early, calls that
    have not started never do, and those in flight are dropped.

    A record is resolved by joined calls for its distinct actors, and only then are its
    arguments looked up, so that its message does not depend on the order of replies.
-/

namespace Console.SingleFlight

/-! ### Sources -/

/-- A reply, and for how many rounds it keeps the fetch waiting. -/
structure Answer where
  delay : Nat := 0
  reply : Reply

/-- A source of grips. -/
structure Source where
  /-- The answer to the `n`-th fetch of an actor, counted from zero. -/
  answer : ActorId → Nat → Answer

/-- An object table answers at once, and always the same. -/
def Source.ofTable (table : ObjectTable) : Source where
  answer actor _ :=
    { reply := match table.get? actor with
        | some grip => .grip grip
        | none => .unknown }

/-! ### Sessions -/

/-- A source with the state of all calls made to it. -/
structure Session where
  limits : Limits
  source : Source
  state : State := {}
  /-- The answers on their way, by the calls that fetch. -/
  answers : OrderedMap Nat Answer := .empty

namespace Session

/-- The number of actors whose front has been made. -/
def cachedCount (s : Session) : Nat := s.state.cachedCount

/-- The session after a move; a move that is not possible changes nothing. -/
def move (s : Session) (m : Move) : Session :=
  { s with state := (s.state.step? s.limits m).getD s.state }

/-- Gives a call that has begun to fetch its answer, as the latest fetch of its actor. -/
def ask (s : Session) (id : Nat) (actor : ActorId) : Session :=
  { s with
    answers := s.answers.insert id (s.source.answer actor (s.state.fetchCount actor - 1)) }

/-- Lets one round pass for a call that fetches: its answer is ready or comes nearer. -/
def await (s : Session) (id : Nat) : Session :=
  match s.answers.get? id with
  | some ⟨0, reply⟩ => s.move (.reply id reply)
  | some ⟨delay + 1, reply⟩ => { s with answers := s.answers.insert id ⟨delay, reply⟩ }
  | none => s

/-- Follows up a call or a resumption: if the call fetches now, it asks and awaits. -/
def follow (s : Session) (id : Nat) (actor : ActorId) : Session :=
  if s.state.isFetching id then (s.ask id actor).await id else s

/-- Starts a call, whose place is the number of calls before it. -/
def start (s : Session) (reference : Reference) : Session :=
  (s.move (.call reference)).follow s.state.calls.length reference.actor

/-- Lets a call go on for one round. -/
def poll (s : Session) (id : Nat) : Session :=
  match s.state.calls[id]? with
  | some ⟨_, .fetching⟩ => s.await id
  | some ⟨reference, .waiting⟩ => (s.move (.resume id)).follow id reference.actor
  | _ => s

/-! ### Joined calls -/

/-- When joined calls end with a failure. -/
inductive Join where
  /-- Never: every call runs to its end. -/
  | never
  /-- As soon as any call fails. -/
  | firstInTime
  /-- As soon as a call fails before which, in order, all calls have succeeded. -/
  | firstInOrder
  deriving DecidableEq

/-- The failure of the first of the calls that has failed. -/
def anyFailure? (s : Session) (ids : List Nat) : Option Fault :=
  ids.findSome? fun id =>
    match s.state.outcome? id with
    | some (.error fault) => some fault
    | _ => none

/-- The failure of the first of the calls that has not succeeded. -/
def leadingFailure? (s : Session) : List Nat → Option Fault
  | [] => none
  | id :: rest =>
    match s.state.outcome? id with
    | some (.ok _) => s.leadingFailure? rest
    | some (.error fault) => some fault
    | none => none

/-- The failure that ends joined calls. -/
def failure? (s : Session) (ids : List Nat) : Join → Option Fault
  | .never => none
  | .firstInTime => s.anyFailure? ids
  | .firstInOrder => s.leadingFailure? ids

/-- The first round: starts calls in order until the join fails. `first` is the place of
    the first joined call. -/
def startAll (join : Join) (first : Nat) (s : Session) : List Reference → Session
  | [] => s
  | reference :: rest =>
    let s := s.start reference
    let ids := List.range' first (s.state.calls.length - first)
    -- the calls not yet started never fetch
    if (s.failure? ids join).isSome then s else startAll join first s rest

/-- A further round: lets the calls of `turn` go on in order until the join of `ids`
    fails. -/
def pollAll (join : Join) (ids : List Nat) (s : Session) : List Nat → Session
  | [] => s
  | id :: rest =>
    let s := s.poll id
    if (s.failure? ids join).isSome then s else pollAll join ids s rest

/-- Whether all calls have ended. -/
def settled (s : Session) (ids : List Nat) : Bool :=
  ids.all fun id => (s.state.outcome? id).isSome

/-- Further rounds, at most as many as given, until all calls have ended or their join has
    failed. -/
def rounds (join : Join) (ids : List Nat) (s : Session) : Nat → Session
  | 0 => s
  | n + 1 =>
    if s.settled ids || (s.failure? ids join).isSome then s
    else rounds join ids (s.pollAll join ids ids) n

/-- A number of rounds in which calls for the references end: each call makes at most one
    fetch, and while any is unfinished a round passes for some fetch. -/
def patience (s : Session) (references : List Reference) : Nat :=
  references.foldl (fun total reference =>
    (List.range references.length).foldl (fun total n =>
      let fetch := s.state.fetchCount reference.actor + n
      total + (s.source.answer reference.actor fetch).delay + 1) total) 0

/-- Drops the calls that have not ended. -/
def dropAll (s : Session) (ids : List Nat) : Session :=
  ids.foldl (fun s id => s.move (.drop id)) s

/-- Joins calls for references: the calls that were started, and the session when all have
    ended or their join has failed. -/
def joined (join : Join) (s : Session) (references : List Reference) : List Nat × Session :=
  let first := s.state.calls.length
  let patience := s.patience references
  let s := s.startAll join first references
  let ids := List.range' first (s.state.calls.length - first)
  (ids, (s.rounds join ids patience).dropAll ids)

/-! ### Resolving -/

/-- Resolves references concurrently, each to its own end. -/
def resolveAll (s : Session) (references : List Reference) :
    List (Except Fault (Shared Front)) × Session :=
  let (ids, s) := s.joined .never references
  (ids.filterMap s.state.outcome?, s)

/-- The first reference to each actor, in order. -/
def distinctActors (references : List Reference) : List Reference :=
  references.eraseDupsBy fun x y => x.actor == y.actor

/-- The greatest number of arguments among which the first failure in time ends the
    resolution of a record; among more, it is the first in order. -/
def promptArguments : Nat := 30

/-- How the calls for a record are joined. -/
def joinOf (record : Record) : Join :=
  if record.arguments.length ≤ promptArguments then .firstInTime else .firstInOrder

/-- Resolves the distinct actors of a record concurrently, up to the failure that ends the
    join. -/
def resolveReferences (s : Session) (record : Record) : Except Fault ResolvedFronts × Session :=
  let join := joinOf record
  let (ids, s) := s.joined join (distinctActors record.references)
  -- no arguments are looked up after a failure
  match s.failure? ids join with
  | some fault => (.error fault, s)
  | none =>
    (.ok (.ofList (ids.filterMap fun id => (s.state.outcome? id).bind Except.toOption)), s)

/-- Resolves the references of a record, then its arguments from the fronts. -/
def resolveRecord (s : Session) (record : Record) : Except Fault ResolvedRecord × Session :=
  match s.resolveReferences record with
  | (.error fault, s) => (.error fault, s)
  | (.ok fronts, s) => ((record.resolve fronts).1, s)

end Session

/-! ### Preparing and exporting -/

/-- Prepares the message of a record live. Nothing is drawn for a record that cannot be
    resolved. -/
def Session.prepare (s : Session) (record : Record) (ids : IdSource) :
    Except Fault Message × IdSource × Session :=
  let (result, s) := s.resolveRecord record
  let (message, ids) := settle ids result
  (message, ids, s)

/-- Exports a store live, one record after the other. -/
def Session.export (s : Session) (store : Store) (ids : IdSource) :
    Exported × IdSource × Session :=
  exportEntries resolveRecord {} ids s store.entries

end Console.SingleFlight
