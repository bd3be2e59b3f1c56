import Console.Proofs.SingleFlight.Export
import Console.Proofs.Views

/-! # What records of a live export owe to each other

    Records that are exported live share the fronts that the session caches. What a session
    fetches it checks for the type that the reference expects, what it has cached it does
    not, and so a record may get past a reference at which it would fail by itself. It does
    not succeed for that, because its arguments are looked up under their types afterwards,
    but it may fail at another reference.

    - `ObjectTable.refused?`: the reference at which a record fails,
    - `Record.Steady`: the records that fail at the same reference whatever is cached,
    - `anonymousSlot`: what an export shows of a record, up to the id of its message,
    - `Session.export_isolated`: two exports show the same of a record, or both that it
      fails, and always the same exactly if it is steady.
-/

namespace Console

variable {table : ObjectTable} {limits : Limits} {cached cached' : ActorId → Bool} {record : Record}
  {reference : Reference}

/-! ### Slots without ids -/

/-- The slot without the id of its message and the identities of fronts. -/
def Slot.anonymous (slot : Slot) : Slot := slot.content.withId ""

theorem Slot.fault?_anonymous (slot : Slot) : slot.anonymous.fault? = slot.fault? := by
  rw [anonymous, fault?_withId]
  exact faultOf?_map Message.content slot.message

/-- Without its id, a slot is told by the content of the result. -/
theorem anonymous_settleSlot (ids : IdSource) (record : Record) (packet : Except Fault ResolvedRecord) :
    (settleSlot ids record packet).1.anonymous =
      ⟨record, packet.map ResolvedRecord.erased,
        (packet.map ResolvedRecord.erased).map fun found => found.message ""⟩ := by
  cases packet with
  | error fault => rfl
  | ok packet =>
    simp only [settleSlot, settle, Slot.anonymous, Slot.content, Slot.withId, Except.map,
      ← ResolvedRecord.message_content]
    rfl

/-! ### The reference that is refused -/

/-- Whether a table has no grip of the type that a reference expects. -/
def ObjectTable.refuses (table : ObjectTable) (reference : Reference) : Bool :=
  (TableResolver.describe? table reference).isNone

/-- The reference at which a record fails in a session over a table, if the fronts of the
    given actors are cached: the first to its actor for which nothing is found, or else the
    first that the table refuses. -/
def ObjectTable.refused? (table : ObjectTable) (cached : ActorId → Bool) (record : Record) :
    Option Reference :=
  ((SingleFlight.Session.distinctActors record.references).find? fun r =>
    (table.grip? cached r).isNone).or (record.references.find? table.refuses)

/-- Says that the references at which a record may fail are told apart by no cache: of the
    first references to its actors the table refuses none, or lacks the actor of the first
    that it refuses, or refuses one only, and none of the record before it. -/
def Record.Steady (table : ObjectTable) (record : Record) : Prop :=
  match (SingleFlight.Session.distinctActors record.references).filter table.refuses with
  | [] => True
  | first :: rest =>
    table.get? first.actor = none ∨ (rest = [] ∧ record.references.find? table.refuses = some first)

namespace ObjectTable

/-- What is cached is described, so that what is not found is refused. -/
theorem refuses_of_grip? (hcached : ∀ actor, cached actor → (table.get? actor).isSome)
    (h : table.grip? cached reference = none) : table.refuses reference := by
  unfold grip? at h
  split at h
  · next hactor =>
    have hsome := hcached reference.actor hactor
    rw [h] at hsome
    cases hsome
  · rw [refuses, h]
    rfl

/-- If nothing is cached, what is refused is not found. -/
theorem isNone_grip?_of_uncached (hcached : cached reference.actor = false) :
    (table.grip? cached reference).isNone = table.refuses reference := by
  rw [grip?, hcached, if_neg Bool.false_ne_true, refuses]

theorem refused?_of_uncached (table : ObjectTable) (record : Record) :
    table.refused? (fun _ => false) record =
      ((SingleFlight.Session.distinctActors record.references).find? table.refuses).or
        (record.references.find? table.refuses) := rfl

/-- What fails is a reference of the record that the table refuses. -/
theorem refuses_of_refused? (hcached : ∀ actor, cached actor → (table.get? actor).isSome)
    (h : table.refused? cached record = some reference) :
    reference ∈ record.references ∧ table.refuses reference := by
  rcases Option.or_eq_some_iff.1 h with hfirst | ⟨-, hfirst⟩
  · refine ⟨SingleFlight.mem_of_mem_distinctActors (List.mem_of_find?_eq_some hfirst), ?_⟩
    have hnone := List.find?_some hfirst
    exact refuses_of_grip? hcached (Option.isNone_iff_eq_none.1 hnone)
  · exact ⟨List.mem_of_find?_eq_some hfirst, List.find?_some hfirst⟩

/-- A record that does not fail has no reference that the table refuses. -/
theorem isSome_describe?_of_refused? (h : table.refused? cached record = none)
    (hmem : reference ∈ record.references) : (TableResolver.describe? table reference).isSome := by
  have hnone := List.find?_eq_none.1 (Option.or_eq_none_iff.1 h).2 reference hmem
  exact Option.ne_none_iff_isSome.1 (by simpa [refuses] using hnone)

/-- Whether a record fails does not depend on the cache. -/
theorem refused?_eq_none (hcached : ∀ actor, cached actor → (table.get? actor).isSome)
    (h : table.refused? cached' record = none) : table.refused? cached record = none := by
  cases hrefused : table.refused? cached record with
  | none => rfl
  | some reference =>
    obtain ⟨hmem, hrefuses⟩ := refuses_of_refused? hcached hrefused
    have hsome := isSome_describe?_of_refused? h hmem
    rw [refuses, Option.isNone_iff_eq_none] at hrefuses
    rw [hrefuses] at hsome
    cases hsome

/-- What a session makes of a record is told by the reference at which it fails. -/
theorem resolved_eq (table : ObjectTable) (limits : Limits) (cached : ActorId → Bool)
    (record : Record) :
    table.resolved limits cached record =
      match table.refused? cached record with
      | some reference => .error (.unresolvable reference)
      | none => (contentOf limits table record.arguments).map (⟨record, ·⟩) := by
  unfold resolved refused?
  cases hfirst : (SingleFlight.Session.distinctActors record.references).find?
      fun r => (table.grip? cached r).isNone with
  | some reference => rfl
  | none =>
    rw [Option.none_or]
    cases hrefused : record.references.find? table.refuses with
    | some reference =>
      rw [contentOf_eq_error hrefused]
      rfl
    | none => rfl

/-! ### Steady records -/

/-- The first item that has a property is the first to have a stronger one, if it has it. -/
theorem find?_of_imp {α : Type} {p q : α → Bool} {xs : List α} {x : α}
    (h : xs.find? p = some x) (hq : q x) (himp : ∀ y ∈ xs, q y → p y) : xs.find? q = some x := by
  obtain ⟨-, before, after, rfl, hbefore⟩ := List.find?_eq_some_iff_append.1 h
  refine List.find?_eq_some_iff_append.2 ⟨hq, before, after, rfl, ?_⟩
  intro y hy
  have hp := hbefore y hy
  have hmem := himp y (List.mem_append_left _ hy)
  cases hqy : q y with
  | false => rfl
  | true =>
    rw [hmem hqy] at hp
    cases hp

/-- A steady record fails at the same reference whatever is cached. -/
theorem refused?_of_steady (h : record.Steady table)
    (hcached : ∀ actor, cached actor → (table.get? actor).isSome) :
    table.refused? cached record = table.refused? (fun _ => false) record := by
  rw [refused?_of_uncached]
  have himp : ∀ r ∈ SingleFlight.Session.distinctActors record.references,
      (table.grip? cached r).isNone → table.refuses r :=
    fun r _ hnone => refuses_of_grip? hcached (Option.isNone_iff_eq_none.1 hnone)
  have hhead := @List.head?_filter _ table.refuses
    (SingleFlight.Session.distinctActors record.references)
  unfold Record.Steady at h
  split at h
  · next hnil =>
    -- no first reference is refused, and none with a cache
    rw [hnil] at hhead
    have hnone := List.find?_eq_none.1 hhead.symm
    have hnone' : (SingleFlight.Session.distinctActors record.references).find?
        (fun r => (table.grip? cached r).isNone) = none :=
      List.find?_eq_none.2 fun r hr hq => hnone r hr (himp r hr hq)
    rw [refused?, hnone', ← hhead]
    rfl
  · next first rest hcons =>
    rw [hcons] at hhead
    rw [← hhead]
    show _ = some first
    rcases h with habsent | ⟨rfl, hfirst⟩
    · -- an actor that is not described is not cached either
      have hnone : (table.grip? cached first).isNone := by
        rw [grip?, habsent, TableResolver.describe?_eq_none habsent, ite_self]
        rfl
      rw [refused?, find?_of_imp hhead.symm hnone himp]
      rfl
    · rw [refused?, hfirst]
      cases hfound : (SingleFlight.Session.distinctActors record.references).find?
          fun r => (table.grip? cached r).isNone with
      | none => rfl
      | some r =>
        have hmem := List.mem_of_find?_eq_some hfound
        have hnone := List.find?_some hfound
        have hrefuses := himp r hmem hnone
        have honly : r ∈ [first] := hcons ▸ List.mem_filter.2 ⟨hmem, hrefuses⟩
        rw [List.mem_singleton.1 honly]
        rfl

/-- A record that is not steady fails at another reference if the front of a certain actor
    is cached and no other. -/
theorem exists_of_not_steady (h : ¬ record.Steady table) :
    ∃ actor grip, table.get? actor = some grip ∧
      ∀ cached : ActorId → Bool, cached actor → (∀ other, other ≠ actor → cached other = false) →
        table.refused? cached record ≠ table.refused? (fun _ => false) record := by
  unfold Record.Steady at h
  split at h
  · exact absurd trivial h
  · next first rest hcons =>
    rw [not_or, not_and] at h
    obtain ⟨hpresent, hlater⟩ := h
    obtain ⟨grip, hgrip⟩ := Option.ne_none_iff_exists'.1 hpresent
    refine ⟨first.actor, grip, hgrip, fun cached hactor hothers => ?_⟩
    have hhead := @List.head?_filter _ table.refuses
      (SingleFlight.Session.distinctActors record.references)
    rw [hcons] at hhead
    rw [refused?_of_uncached, ← hhead]
    show _ ≠ some first
    have hdistinct := (SingleFlight.pairwise_distinctActors record.references).filter table.refuses
    rw [hcons, List.pairwise_cons] at hdistinct
    have hfirst : (table.grip? cached first).isNone = false := by
      rw [grip?, if_pos hactor, hgrip]
      rfl
    intro hrefused
    rcases Option.or_eq_some_iff.1 hrefused with hfound | ⟨hnone, hfound⟩
    · -- the grip of its actor is found whatever type is expected
      have hgone := List.find?_some hfound
      rw [hfirst] at hgone
      cases hgone
    · refine hlater ?_ hfound
      -- any further reference that is refused would be so with this cache
      refine List.eq_nil_iff_forall_not_mem.2 fun r hr => ?_
      have hmem := List.mem_filter.1 (hcons ▸ List.mem_cons_of_mem first hr)
      have huncached := hothers r.actor (Ne.symm (hdistinct.1 r hr))
      refine List.find?_eq_none.1 hnone r hmem.1 ?_
      rw [isNone_grip?_of_uncached huncached]
      exact hmem.2

end ObjectTable

namespace SingleFlight

variable {s : Session} {key : String} {store store' : Store} {ids ids' : IdSource}

/-! ### Slots of an export -/

/-- The slot of a record without its id, in an export by a session over a table that has
    cached the fronts of the given actors. -/
def anonymousSlot (table : ObjectTable) (limits : Limits) (cached : ActorId → Bool)
    (record : Record) : Slot :=
  ⟨record, table.resolved limits cached record,
    (table.resolved limits cached record).map fun packet => packet.message ""⟩

/-- A slot holds the fault that its record fails with, if it does. -/
theorem fault?_anonymousSlot (table : ObjectTable) (limits : Limits) (cached : ActorId → Bool)
    (record : Record) :
    (anonymousSlot table limits cached record).fault? =
      (table.refused? cached record).map Fault.unresolvable := by
  unfold anonymousSlot
  rw [ObjectTable.resolved_eq]
  cases hrefused : table.refused? cached record with
  | some reference => rfl
  | none =>
    obtain ⟨parameters, hok⟩ := @exists_contentOf_eq_ok limits table record.arguments
      fun reference hmem => ObjectTable.isSome_describe?_of_refused? hrefused hmem
    rw [hok]
    rfl

/-- Two such slots are the same exactly if the record fails at the same reference. -/
theorem anonymousSlot_eq_iff :
    anonymousSlot table limits cached record = anonymousSlot table limits cached' record ↔
      table.refused? cached record = table.refused? cached' record := by
  constructor
  · intro h
    have hfault := congrArg Slot.fault? h
    rw [fault?_anonymousSlot, fault?_anonymousSlot] at hfault
    exact Option.map_injective (fun x y hxy => Fault.unresolvable.inj hxy) hfault
  · intro h
    unfold anonymousSlot
    rw [ObjectTable.resolved_eq, ObjectTable.resolved_eq, h]

/-- The first record is exported with the cache that is there. -/
theorem slot_self (h : Idle table limits s) (key : String) (record : Record)
    (rest : List (String × Record)) (ids : IdSource) :
    (lookupEntry key (exportSlots Session.resolveRecord ids s ((key, record) :: rest)).1).map
        Slot.anonymous =
      some (anonymousSlot table limits s.caches record) := by
  obtain ⟨hresolved, -⟩ := Session.resolveRecord_spec h record
  simp only [exportSlots, lookupEntry, if_true, Option.map_some, anonymous_settleSlot, hresolved,
    anonymousSlot]

/-- Any other record is exported by the session that the first one leaves. -/
theorem slot_ne {other : String} (hne : other ≠ key) (first : Record)
    (rest : List (String × Record)) (ids : IdSource) :
    lookupEntry key (exportSlots Session.resolveRecord ids s ((other, first) :: rest)).1 =
      lookupEntry key (exportSlots Session.resolveRecord
        (settleSlot ids first (s.resolveRecord first).1).2 (s.resolveRecord first).2 rest).1 := by
  simp only [exportSlots, lookupEntry, if_neg hne]

/-- Each record is exported with some cache of described actors, whatever records come before
    it. -/
theorem exists_slot {entries : List (String × Record)} (h : Idle table limits s)
    (hfound : lookupEntry key entries = some record) (ids : IdSource) :
    ∃ cached : ActorId → Bool, (∀ actor, cached actor → (table.get? actor).isSome) ∧
      (lookupEntry key (exportSlots Session.resolveRecord ids s entries).1).map Slot.anonymous =
        some (anonymousSlot table limits cached record) := by
  induction entries generalizing s ids with
  | nil => cases hfound
  | cons entry rest ih =>
    obtain ⟨first, found⟩ := entry
    by_cases hkey : first = key
    · simp only [lookupEntry, if_pos hkey, Option.some.injEq] at hfound
      subst hkey hfound
      exact ⟨s.caches, fun actor hactor => h.isSome_get? hactor, slot_self h first found rest ids⟩
    · simp only [lookupEntry, if_neg hkey] at hfound
      obtain ⟨-, fronts, fault, hserved⟩ := Session.resolveRecord_spec h found
      rw [slot_ne hkey]
      exact ih hserved.idle hfound _

/-- A cache of one actor, by a record that refers to it alone. -/
theorem caches_of_single {actor : ActorId} {grip : Grip} (limits : Limits)
    (hgrip : table.get? actor = some grip) (hreferences : record.references = [⟨actor, grip.type⟩]) :
    let s : Session := { limits := limits, source := .ofTable table }
    Idle table limits (s.resolveRecord record).2 ∧ (s.resolveRecord record).2.caches actor ∧
      ∀ other, other ≠ actor → (s.resolveRecord record).2.caches other = false := by
  intro s
  obtain ⟨-, fronts, fault, hserved⟩ := Session.resolveRecord_spec (idle_start table limits) record
  have hdistinct : Session.distinctActors record.references = [⟨actor, grip.type⟩] := by
    rw [hreferences]
    rfl
  rw [hdistinct] at hserved
  have hdescribed := (@TableResolver.describe?_eq_some_iff ⟨actor, grip.type⟩ grip table).2 ⟨hgrip, rfl⟩
  have hfault : fault = none := by
    rw [hserved.answered.fault_eq, List.find?_cons_of_neg]
    · rfl
    · show ¬ (TableResolver.describe? table ⟨actor, grip.type⟩).isNone
      rw [hdescribed]
      exact Bool.false_ne_true
  refine ⟨hserved.idle, hserved.cached hfault _ List.mem_cons_self, fun other hother => ?_⟩
  have hcell := hserved.cells other fun reference hmem => by
    rw [List.mem_singleton.1 hmem]
    exact hother.symm
  rw [Session.caches, hcell]
  rfl

/-! ### Isolation -/

/-- The slot of a key in the export of a store by a fresh session over a table. -/
def liveSlot (table : ObjectTable) (limits : Limits) (store : Store) (ids : IdSource)
    (key : String) : Option Slot :=
  (({ limits := limits, source := .ofTable table } : Session).export store ids).1.get? key

theorem liveSlot_eq (table : ObjectTable) (limits : Limits) (store : Store) (ids : IdSource)
    (key : String) :
    liveSlot table limits store ids key = lookupEntry key (exportSlots Session.resolveRecord ids
      { limits := limits, source := .ofTable table } store.entries).1 :=
  (Exported.holds_exportEntries Session.resolveRecord ids _ store).1.get?_eq key

theorem exists_liveSlot (limits : Limits) (hget : store.get? key = some record) (ids : IdSource) :
    ∃ cached : ActorId → Bool, (∀ actor, cached actor → (table.get? actor).isSome) ∧
      (liveSlot table limits store ids key).map Slot.anonymous =
        some (anonymousSlot table limits cached record) := by
  rw [liveSlot_eq]
  exact exists_slot (idle_start table limits) hget ids

/-- Records that are not steady are told apart by what comes before them. -/
theorem exists_stores_of_not_steady (limits : Limits) (key : String) (h : ¬ record.Steady table) :
    ∃ store store' : Store, store.get? key = some record ∧ store'.get? key = some record ∧
      ∀ ids ids', (liveSlot table limits store ids key).map Slot.anonymous ≠
        (liveSlot table limits store' ids' key).map Slot.anonymous := by
  obtain ⟨actor, grip, hgrip, hdiffers⟩ := ObjectTable.exists_of_not_steady h
  -- a record that has the front of the actor made, and nothing else
  let single : Record := { kind := .bare .log, arguments := [.reference ⟨actor, grip.type⟩] }
  have hother : key ++ "'" ≠ key := by
    intro heq
    have hlength := congrArg String.length heq
    rw [String.length_append] at hlength
    have hone : "'".length = 1 := rfl
    omega
  let alone : Store := { records := ⟨[(key, record)], by simp⟩ }
  let after : Store := { records := ⟨[(key ++ "'", single), (key, record)], by simp [hother]⟩ }
  refine ⟨alone, after, ?_, ?_, ?_⟩
  · simp [alone, Store.get?, OrderedMap.get?, lookupEntry]
  · simp [after, Store.get?, OrderedMap.get?, lookupEntry, hother]
  · intro ids ids' hsame
    obtain ⟨hidle, hactor, hothers⟩ := @caches_of_single table single actor grip limits hgrip rfl
    have halone : alone.entries = [(key, record)] := rfl
    have hafter : after.entries = [(key ++ "'", single), (key, record)] := rfl
    rw [liveSlot_eq, liveSlot_eq, halone, hafter, slot_ne hother,
      slot_self (idle_start table limits), slot_self hidle, Option.some.injEq,
      anonymousSlot_eq_iff] at hsame
    exact hdiffers _ hactor hothers hsame.symm

/-- Two live exports over the same table of stores that hold the same record under a key
    show the same of it, up to the id of its message and the identities of fronts, or both
    that it fails at a reference which the table refuses; and they always show the same
    exactly if the record is steady. -/
theorem Session.export_isolated (table : ObjectTable) (limits : Limits) (key : String)
    (record : Record) :
    (∀ (store store' : Store) (ids ids' : IdSource),
      store.get? key = some record → store'.get? key = some record →
      ∃ slot slot', liveSlot table limits store ids key = some slot ∧
        liveSlot table limits store' ids' key = some slot' ∧
        slot.record = record ∧ slot'.record = record ∧
        (slot.anonymous = slot'.anonymous ∨
          ∃ reference ∈ record.references, ∃ reference' ∈ record.references,
            table.refuses reference ∧ table.refuses reference' ∧
            slot.fault? = some (.unresolvable reference) ∧
            slot'.fault? = some (.unresolvable reference'))) ∧
    (record.Steady table ↔
      ∀ (store store' : Store) (ids ids' : IdSource),
        store.get? key = some record → store'.get? key = some record →
        (liveSlot table limits store ids key).map Slot.anonymous =
          (liveSlot table limits store' ids' key).map Slot.anonymous) := by
  refine ⟨?_, ?_, ?_⟩
  · intro store store' ids ids' hget hget'
    obtain ⟨cached, hcached, hslot⟩ := @exists_liveSlot table record key store limits hget ids
    obtain ⟨cached', hcached', hslot'⟩ := @exists_liveSlot table record key store' limits hget' ids'
    obtain ⟨slot, hlive, hanonymous⟩ := Option.map_eq_some_iff.1 hslot
    obtain ⟨slot', hlive', hanonymous'⟩ := Option.map_eq_some_iff.1 hslot'
    refine ⟨slot, slot', hlive, hlive', congrArg Slot.record hanonymous,
      congrArg Slot.record hanonymous', ?_⟩
    cases hrefused : table.refused? cached record with
    | none =>
      have hrefused' := ObjectTable.refused?_eq_none hcached' hrefused
      left
      rw [hanonymous, hanonymous', anonymousSlot_eq_iff, hrefused, hrefused']
    | some reference =>
      cases hrefused' : table.refused? cached' record with
      | none =>
        rw [ObjectTable.refused?_eq_none hcached hrefused'] at hrefused
        cases hrefused
      | some reference' =>
        obtain ⟨hmem, hrefuses⟩ := ObjectTable.refuses_of_refused? hcached hrefused
        obtain ⟨hmem', hrefuses'⟩ := ObjectTable.refuses_of_refused? hcached' hrefused'
        refine .inr ⟨reference, hmem, reference', hmem', hrefuses, hrefuses', ?_, ?_⟩
        · rw [← Slot.fault?_anonymous, hanonymous, fault?_anonymousSlot, hrefused]
          rfl
        · rw [← Slot.fault?_anonymous, hanonymous', fault?_anonymousSlot, hrefused']
          rfl
  · intro hsteady store store' ids ids' hget hget'
    obtain ⟨cached, hcached, hslot⟩ := @exists_liveSlot table record key store limits hget ids
    obtain ⟨cached', hcached', hslot'⟩ := @exists_liveSlot table record key store' limits hget' ids'
    rw [hslot, hslot', Option.some.injEq, anonymousSlot_eq_iff]
    rw [ObjectTable.refused?_of_steady hsteady hcached, ObjectTable.refused?_of_steady hsteady hcached']
  · intro hsame
    by_contra hsteady
    obtain ⟨store, store', hget, hget', hdiffer⟩ := exists_stores_of_not_steady limits key hsteady
    let ids : IdSource := .sequential 1
    exact hdiffer ids ids (hsame store store' ids ids hget hget')

/-- A call with the symbol as if it were an object, and with an object that is not
    described. -/
def misusedCall : Record where
  kind := .bare .log
  arguments := [.reference ⟨⟨"s"⟩, .object⟩, .reference ⟨⟨"t"⟩, .object⟩]
  objects := symbolTable

/-- By itself the call fails at the symbol, but after one that has the symbol made it fails
    at the other object. -/
theorem Session.export_misusedCall :
    let alone : Store := { records := .ofList [("misused", misusedCall)] }
    let after : Store := { records := .ofList [("first", symbolCall), ("misused", misusedCall)] }
    let fault (store : Store) : Option Fault :=
      (liveSlot symbolTable {} store (.sequential 1) "misused").bind Slot.fault?
    fault alone = some (.unresolvable ⟨⟨"s"⟩, .object⟩) ∧
      fault after = some (.unresolvable ⟨⟨"t"⟩, .object⟩) ∧ ¬ misusedCall.Steady symbolTable := by
  intro alone after fault
  have halone : fault alone = some (.unresolvable ⟨⟨"s"⟩, .object⟩) := by rfl
  have hafter : fault after = some (.unresolvable ⟨⟨"t"⟩, .object⟩) := by rfl
  refine ⟨halone, hafter, fun hsteady => ?_⟩
  have hsame := (Session.export_isolated symbolTable {} "misused" misusedCall).2.1 hsteady
    alone after (.sequential 1) (.sequential 1) rfl rfl
  have hfaults : fault alone = fault after := by
    have hfaults := congrArg (fun slot : Option Slot => slot.bind Slot.fault?) hsame
    simpa only [Option.bind_map, Function.comp_def, Slot.fault?_anonymous] using hfaults
  rw [halone, hafter] at hfaults
  simp at hfaults

end SingleFlight

end Console
