import Console.Message.Parameter
import Console.Record.Basic
import Console.Record.Fault

/-! # Resolution of references

    A resolver turns a reference into the shared front of its actor. Two resolvers work
    from what is at hand:

    - `TableResolver` makes the front of each actor on first use, from an object table,
      and hands out the same instance from then on,
    - `ResolvedFronts` holds fronts that were made before.

    Both refuse an actor that they do not know, or know as another type. What a table
    resolver has already made it hands out without looking at the type again.
-/

namespace Console

/-- Something that resolves references and may change in doing so. -/
class Resolver (σ : Type) where
  /-- The front of a reference, and the resolver afterwards. -/
  resolve : σ → Reference → Except Fault (Shared Front) × σ

/-! ### Resolving from an object table -/

/-- A resolver over an object table, with the fronts that it has made so far. Serial
    numbers count the fronts in the order they were made. -/
structure TableResolver where
  table : ObjectTable
  limits : Limits
  made : OrderedMap ActorId (Shared Front) := .empty

namespace TableResolver

/-- The number of fronts made so far. -/
def count (r : TableResolver) : Nat := r.made.size

/-- The description of a reference, if it has the expected type. -/
def describe? (table : ObjectTable) (reference : Reference) : Option Grip :=
  (table.get? reference.actor).filter fun grip => grip.type == reference.type

/-- The front of a reference: the one made for its actor, else a new one. -/
def resolve (r : TableResolver) (reference : Reference) :
    Except Fault (Shared Front) × TableResolver :=
  match r.made.get? reference.actor with
  | some shared => (.ok shared, r)
  | none =>
    match describe? r.table reference with
    | none => (.error (.unresolvable reference), r)
    | some grip =>
      let shared : Shared Front := ⟨r.made.size, Front.ofGrip r.limits grip⟩
      (.ok shared, { r with made := r.made.insert reference.actor shared })

instance : Resolver TableResolver := ⟨resolve⟩

end TableResolver

/-! ### Resolving from finished fronts -/

/-- Fronts that were made before, by their own actor. -/
structure ResolvedFronts where
  fronts : OrderedMap ActorId (Shared Front) := .empty

namespace ResolvedFronts

/-- The fronts with a further one, which replaces an earlier one of its actor. -/
def insert (r : ResolvedFronts) (shared : Shared Front) : ResolvedFronts :=
  ⟨r.fronts.insert shared.value.actor shared⟩

/-- The fronts of a list, the last of an actor counting. -/
def ofList (shared : List (Shared Front)) : ResolvedFronts := shared.foldl insert {}

/-- The front of an actor. -/
def get? (r : ResolvedFronts) (actor : ActorId) : Option (Shared Front) := r.fronts.get? actor

/-- The number of fronts. -/
def count (r : ResolvedFronts) : Nat := r.fronts.size

/-- The front of a reference, if it has the expected type. -/
def resolve (r : ResolvedFronts) (reference : Reference) :
    Except Fault (Shared Front) × ResolvedFronts :=
  match (r.get? reference.actor).filter fun shared => shared.value.type == reference.type with
  | some shared => (.ok shared, r)
  | none => (.error (.unresolvable reference), r)

instance : Resolver ResolvedFronts := ⟨resolve⟩

end ResolvedFronts

/-! ### Resolving arguments -/

section arguments

variable {σ : Type} [Resolver σ]

/-- The parameter of an argument. -/
def resolveArgument (r : σ) : Argument → Except Fault Parameter × σ
  | .text value => (.ok (.text value), r)
  | .number value => (.ok (.number value), r)
  | .bool value => (.ok (.bool value), r)
  | .literal value => (.ok (.literal value), r)
  | .reference reference =>
    let (result, r) := Resolver.resolve r reference
    (result.map .front, r)

/-- The parameters of arguments, from left to right up to the first that cannot be
    resolved. -/
def resolveArguments (r : σ) : List Argument → Except Fault (List Parameter) × σ
  | [] => (.ok [], r)
  | argument :: rest =>
    match resolveArgument r argument with
    | (.error fault, r) => (.error fault, r)
    | (.ok parameter, r) =>
      let (result, r) := resolveArguments r rest
      (result.map (parameter :: ·), r)

/-- A record with its arguments resolved. -/
structure ResolvedRecord where
  record : Record
  arguments : List Parameter

/-- Resolves the arguments of a record. -/
def Record.resolve (r : σ) (record : Record) : Except Fault ResolvedRecord × σ :=
  let (result, r) := resolveArguments r record.arguments
  (result.map (⟨record, ·⟩), r)

end arguments

end Console
