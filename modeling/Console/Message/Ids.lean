/-! # Message ids

    A source of ids is the sequence of ids that it will issue and how many of them have
    been drawn; whatever its policy, drawing moves it on by one. An `IdPolicy` says in
    settings which source to use.
-/

namespace Console

/-- A source of message ids. -/
structure IdSource where
  /-- The `n`-th id, counted from zero. -/
  issue : Nat → String
  drawn : Nat := 0

namespace IdSource

/-- The next id, and the source after it. -/
def next (ids : IdSource) : String × IdSource :=
  (ids.issue ids.drawn, { ids with drawn := ids.drawn + 1 })

/-- Numbers of 64 bits in sequence from `start`. Behind the last such number they go on
    from zero. -/
def sequential (start : UInt64) : IdSource :=
  { issue := fun n => toString (start + UInt64.ofNat n) }

/-- The same id every time. -/
def fixed (id : String) : IdSource := { issue := fun _ => id }

/-- A label followed by one, two, three and so on. -/
def labelled (label : String) : IdSource := { issue := fun n => label ++ toString (n + 1) }

/-- The next `n` ids, and the source after them. -/
def draw (ids : IdSource) : Nat → List String × IdSource
  | 0 => ([], ids)
  | n + 1 =>
    let (id, ids) := ids.next
    let (rest, ids) := ids.draw n
    (id :: rest, ids)

end IdSource

/-! ### Policies -/

/-- Whether ids are numbered or all the same. -/
inductive IdMode where
  | sequential
  | fixed
  deriving DecidableEq

/-- Which ids messages get. -/
structure IdPolicy where
  mode : IdMode := .sequential
  /-- The first number. -/
  start : UInt64 := 1
  /-- The id that all messages share if ids are fixed. -/
  fixedValue : String := "1"
  deriving DecidableEq

/-- A fresh source of the ids of a policy. -/
def IdPolicy.source (policy : IdPolicy) : IdSource :=
  match policy.mode with
  | .sequential => .sequential policy.start
  | .fixed => .fixed policy.fixedValue

/-- The name of a mode. -/
def IdMode.name : IdMode → String
  | sequential => "sequential"
  | fixed => "fixed"

/-- The mode with the given name. -/
def IdMode.ofName? : String → Option IdMode
  | "sequential" => some sequential
  | "fixed" => some fixed
  | _ => none

end Console
