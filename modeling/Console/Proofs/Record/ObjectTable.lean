import Console.Proofs.OrderedMap
import Console.Record.Basic

/-! # What an object table holds

    A table holds the last description of each actor (`get?_ofList`), under the actor that
    the description names. Two lists of descriptions that agree on every actor make tables
    that hold the same (`get?_ofList_eq`), in whatever order they give them.
-/

namespace Console

namespace ObjectTable

variable {table : ObjectTable} {actor : ActorId} {grip : Grip}

theorem actor_of_get? (h : table.get? actor = some grip) : grip.actor = actor :=
  table.ownActor (actor, grip) (OrderedMap.get?_eq_some_iff.1 h)

/-- The descriptions of a table are those that it holds for their actors. -/
theorem mem_toList_iff : grip ∈ table.toList ↔ table.get? grip.actor = some grip := by
  constructor
  · intro h
    obtain ⟨entry, hentry, rfl⟩ := List.mem_map.1 h
    have hactor := table.ownActor entry hentry
    exact OrderedMap.get?_eq_some_iff.2 (by rw [hactor]; exact hentry)
  · intro h
    exact List.mem_map.2 ⟨_, OrderedMap.get?_eq_some_iff.1 h, rfl⟩

/-- The table of a list inserts each description under its actor. -/
theorem grips_ofList (grips : List Grip) :
    (ofList grips).grips = grips.foldl (fun m g => m.insert g.actor g) OrderedMap.empty :=
  (List.foldl_hom ObjectTable.grips fun _ _ => rfl).symm

/-- A table holds the last description of each actor. -/
theorem get?_ofList (grips : List Grip) (actor : ActorId) :
    (ofList grips).get? actor = (grips.filter fun g => g.actor = actor).getLast? := by
  rw [get?, grips_ofList, OrderedMap.get?_foldl_insert, OrderedMap.get?_empty, Option.or_none]

/-- Descriptions that are those of a table, and all of them, make a table that holds the
    same. -/
theorem get?_ofList_eq {grips : List Grip} (hsound : ∀ g ∈ grips, table.get? g.actor = some g)
    (hcomplete : ∀ g ∈ table.toList, g ∈ grips) (actor : ActorId) :
    (ofList grips).get? actor = table.get? actor := by
  rw [get?_ofList]
  cases hlast : (grips.filter fun g => g.actor = actor).getLast? with
  | some g =>
    have hmem := List.mem_filter.1 (List.mem_of_getLast? hlast)
    have hactor : g.actor = actor := by simpa using hmem.2
    rw [← hactor, hsound g hmem.1]
  | none =>
    cases hget : table.get? actor with
    | none => rfl
    | some g =>
      have hactor := actor_of_get? hget
      have hmem := hcomplete g (mem_toList_iff.2 (by rw [hactor]; exact hget))
      rw [List.getLast?_eq_none_iff, List.filter_eq_nil_iff] at hlast
      exact absurd hactor (by simpa using hlast g hmem)

end ObjectTable

end Console
