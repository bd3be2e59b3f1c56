import Console.Proofs.Record.RoundTrip
import Console.Proofs.Resolution.Content
import Console.Proofs.SingleFlight.Joined
import Console.Proofs.Slots
import Mathlib.Data.List.Find

/-! # Live export over a table

    What a live session over a table makes of a record depends on the table and on the
    actors whose fronts are cached (`ObjectTable.resolved`). If references have the types of
    their grips it does not depend on the cache, and is what the record's own table makes of
    it, provided that both tables hold the same grips for the actors that are referred to.
    Exporting a store live then gives the same slots as exporting it from the records' own
    tables, up to the identities of fronts, and draws the same ids (`Session.export_eq`).

    - `find?_distinctActors`: leaving out repeated actors does not change which actor is
      refused first,
    - `Session.resolveRecord_spec`: one record,
    - `exportSlots_eq`: one record after the other, the cache being carried along.
-/

namespace Console

/-! ### Contents of exports -/

/-- The slot without the identities of fronts. -/
def Slot.content (slot : Slot) : Slot :=
  { slot with
    packet := slot.packet.map ResolvedRecord.erased
    message := slot.message.map Message.content }

/-- The exported store without the identities of fronts. -/
def Exported.content (e : Exported) : Exported where
  raw := e.raw
  packets := e.packets.mapValues (Except.map ResolvedRecord.erased)
  prepared := e.prepared.mapValues (Except.map Message.content)

/-- Without the identities of fronts, an export holds its slots without them. -/
theorem Exported.Holds.content {e : Exported} {slots : List (String × Slot)} (h : e.Holds slots) :
    e.content.Holds (slots.map fun entry => (entry.1, entry.2.content)) := by
  constructor
  case raw =>
    rw [List.map_map]
    exact h.raw
  case packets =>
    show e.packets.entries.map _ = _
    rw [h.packets, List.map_map, List.map_map]
    rfl
  case prepared =>
    show e.prepared.entries.map _ = _
    rw [h.prepared, List.map_map, List.map_map]
    rfl

/-- Results of the same content make slots of the same content, and draw the same ids. -/
theorem settleSlot_congr {x y : Except Fault ResolvedRecord}
    (h : x.map ResolvedRecord.erased = y.map ResolvedRecord.erased) (ids : IdSource)
    (record : Record) :
    (settleSlot ids record x).1.content = (settleSlot ids record y).1.content ∧
      (settleSlot ids record x).2 = (settleSlot ids record y).2 := by
  cases x with
  | error cause =>
    cases y with
    | error => cases h; exact ⟨rfl, rfl⟩
    | ok => cases h
  | ok first =>
    cases y with
    | error => cases h
    | ok second =>
      have herased : first.erased = second.erased := Except.ok.inj h
      have hmessage := ResolvedRecord.content_message_congr herased ids.next.1
      refine ⟨?_, rfl⟩
      simp only [settleSlot, settle, Slot.content, Except.map, herased, hmessage]

/-! ### Live contents -/

/-- What a session over a table makes of a record, if it has cached the fronts of the given
    actors: the first reference to each actor is resolved before any argument is. -/
def ObjectTable.resolved (table : ObjectTable) (limits : Limits) (cached : ActorId → Bool)
    (record : Record) : Except Fault ResolvedRecord :=
  match (SingleFlight.Session.distinctActors record.references).find?
      fun r => (table.grip? cached r).isNone with
  | some reference => .error (.unresolvable reference)
  | none => (contentOf limits table record.arguments).map (⟨record, ·⟩)

/-! ### Finished fronts -/

/-- Fronts made before hold the last one of each actor. -/
theorem ResolvedFronts.get?_ofList (fronts : List (Shared Front)) (actor : ActorId) :
    (ofList fronts).get? actor = (fronts.filter fun shared => shared.value.actor = actor).getLast? := by
  have hfronts : (ofList fronts).fronts =
      fronts.foldl (fun m shared => m.insert shared.value.actor shared) OrderedMap.empty :=
    (List.foldl_hom ResolvedFronts.fronts fun _ _ => rfl).symm
  rw [get?, hfronts, OrderedMap.get?_foldl_insert, OrderedMap.get?_empty, Option.or_none]

/-- Fronts are held by their own actor. -/
theorem ResolvedFronts.actor_of_get?_ofList {fronts : List (Shared Front)} {actor : ActorId}
    {shared : Shared Front} (h : (ofList fronts).get? actor = some shared) :
    shared.value.actor = actor := by
  rw [get?_ofList] at h
  have hmem := List.mem_of_getLast? h
  simpa using (List.mem_filter.1 hmem).2

namespace SingleFlight

variable {table : ObjectTable} {limits : Limits} {s : Session} {references : List Reference}
  {fronts : List (Shared Front)} {fault : Option Fault}

/-! ### Distinct actors -/

theorem distinctActors_cons (reference : Reference) (rest : List Reference) :
    Session.distinctActors (reference :: rest) =
      reference :: Session.distinctActors (rest.filter fun r => r.actor ≠ reference.actor) := by
  unfold Session.distinctActors
  rw [List.eraseDupsBy_cons]
  congr 2
  apply List.filter_congr
  intro r _
  by_cases h : r.actor = reference.actor <;> simp [h]

/-- Of the references with some property of their actor, the first is the same when repeated
    actors are left out. -/
theorem find?_distinctActors {p : Reference → Bool}
    (hp : ∀ x y : Reference, x.actor = y.actor → p x = p y) (references : List Reference) :
    (Session.distinctActors references).find? p = references.find? p := by
  match references with
  | [] => rfl
  | reference :: rest =>
    rw [distinctActors_cons]
    -- references left out share their actor, and so the property, with the first one
    by_cases hfirst : p reference
    · rw [List.find?_cons_of_pos hfirst, List.find?_cons_of_pos hfirst]
    · rw [List.find?_cons_of_neg hfirst, List.find?_cons_of_neg hfirst,
        find?_distinctActors hp (rest.filter _), List.find?_filter]
      congr 1
      funext r
      by_cases hactor : r.actor = reference.actor
      · simp [hactor, hp r reference hactor, hfirst]
      · simp [hactor]
termination_by references.length
decreasing_by exact Nat.lt_succ_of_le (List.length_filter_le _ rest)

theorem exists_mem_distinctActors {references : List Reference} {reference : Reference}
    (h : reference ∈ references) :
    ∃ found ∈ Session.distinctActors references, found.actor = reference.actor := by
  have hfind := find?_distinctActors (p := fun r => r.actor = reference.actor)
    (fun x y hxy => by rw [hxy]) references
  cases hfound : references.find? fun r => r.actor = reference.actor with
  | none =>
    have hnone := List.find?_eq_none.1 hfound reference h
    simp at hnone
  | some found =>
    rw [hfound] at hfind
    exact ⟨found, List.mem_of_find?_eq_some hfind, by simpa using List.find?_some hfind⟩

theorem mem_of_mem_distinctActors {references : List Reference} {reference : Reference}
    (h : reference ∈ Session.distinctActors references) : reference ∈ references := by
  match references with
  | [] => cases h
  | first :: rest =>
    rw [distinctActors_cons] at h
    rcases List.mem_cons.1 h with rfl | h
    · exact List.mem_cons_self
    · have hmem := mem_of_mem_distinctActors h
      exact List.mem_cons_of_mem _ (List.mem_filter.1 hmem).1
termination_by references.length
decreasing_by exact Nat.lt_succ_of_le (List.length_filter_le _ rest)

/-- What is left has different actors. -/
theorem pairwise_distinctActors (references : List Reference) :
    (Session.distinctActors references).Pairwise (·.actor ≠ ·.actor) := by
  match references with
  | [] => exact .nil
  | first :: rest =>
    rw [distinctActors_cons, List.pairwise_cons]
    refine ⟨fun other hother => ?_, pairwise_distinctActors (rest.filter _)⟩
    have hne := (List.mem_filter.1 (mem_of_mem_distinctActors hother)).2
    exact Ne.symm (by simpa using hne)
termination_by references.length
decreasing_by exact Nat.lt_succ_of_le (List.length_filter_le _ rest)

/-! ### What was answered -/

namespace Answered

variable {find : Reference → Option Grip}

/-- The first reference for which nothing is found is the one refused. -/
theorem fault_eq (h : Answered limits find references fronts fault) :
    fault = (references.find? fun r => (find r).isNone).map Fault.unresolvable := by
  induction h with
  | nil => rfl
  | front hget _ _ ih => rw [List.find?_cons_of_neg (by simp [hget]), ih]
  | refused hget => rw [List.find?_cons_of_pos (by simp [hget])]; rfl

theorem exists_front (h : Answered limits find references fronts fault) (hfault : fault = none)
    (hfind : ∀ reference grip, find reference = some grip → table.get? reference.actor = some grip)
    {reference : Reference} (hmem : reference ∈ references) :
    ∃ shared ∈ fronts, shared.value.actor = reference.actor := by
  induction h with
  | nil => cases hmem
  | front hget hvalue _ ih =>
    rcases List.mem_cons.1 hmem with rfl | hmem
    · exact ⟨_, List.mem_cons_self, by
        rw [hvalue, Front.actor_ofGrip, ObjectTable.actor_of_get? (hfind _ _ hget)]⟩
    · obtain ⟨shared, hshared, hactor⟩ := ih hfault hmem
      exact ⟨shared, List.mem_cons_of_mem _ hshared, hactor⟩
  | refused => cases hfault

/-- Every front is that of the grip that the table has for its actor. -/
theorem front_of_mem (h : Answered limits find references fronts fault)
    (hfind : ∀ reference grip, find reference = some grip → table.get? reference.actor = some grip)
    {shared : Shared Front} (hmem : shared ∈ fronts) :
    ∃ grip, table.get? shared.value.actor = some grip ∧ shared.value = Front.ofGrip limits grip := by
  induction h with
  | nil => cases hmem
  | front hget hvalue _ ih =>
    rcases List.mem_cons.1 hmem with rfl | hmem
    · refine ⟨_, ?_, hvalue⟩
      rw [hvalue, Front.actor_ofGrip, ObjectTable.actor_of_get? (hfind _ _ hget)]
      exact hfind _ _ hget
    · exact ih hmem
  | refused => cases hmem

/-- If nothing was refused, the fronts answer every reference to an actor that was asked
    for. -/
theorem answers (h : Answered limits find references fronts none)
    (hfind : ∀ reference grip, find reference = some grip → table.get? reference.actor = some grip)
    {reference : Reference} (hmem : ∃ found ∈ references, found.actor = reference.actor) :
    (ResolvedFronts.ofList fronts).Answers limits table reference := by
  obtain ⟨found, hfound, hactor⟩ := hmem
  obtain ⟨first, hfirst, hvalue⟩ := h.exists_front rfl hfind hfound
  have hlast := ResolvedFronts.get?_ofList fronts reference.actor
  cases hget : (fronts.filter fun shared => shared.value.actor = reference.actor).getLast? with
  | none =>
    rw [List.getLast?_eq_none_iff, List.filter_eq_nil_iff] at hget
    exact absurd (hvalue.trans hactor) (by simpa using hget first hfirst)
  | some shared =>
    rw [hget] at hlast
    obtain ⟨hshared, hsame⟩ := List.mem_filter.1 (List.mem_of_getLast? hget)
    obtain ⟨grip, hgrip, hfront⟩ := h.front_of_mem hfind hshared
    have hactor : shared.value.actor = reference.actor := by simpa using hsame
    exact ⟨shared, grip, hlast, hactor ▸ hgrip, hfront⟩

end Answered

/-! ### One record -/

/-- The fronts of calls that finished with fronts. -/
theorem filterMap_toOption {ids : List Nat}
    (h : ids.map s.state.outcome? = outcomes fronts none) :
    ids.filterMap (fun id => (s.state.outcome? id).bind Except.toOption) = fronts := by
  have hmap : ids.filterMap (fun id => (s.state.outcome? id).bind Except.toOption) =
      (ids.map s.state.outcome?).filterMap fun outcome => outcome.bind Except.toOption := by
    rw [List.filterMap_map]
    rfl
  rw [hmap, h]
  simp [outcomes, List.filterMap_map, Except.toOption, Function.comp_def]

namespace Session

theorem joinOf_ne_never (record : Record) : joinOf record ≠ .never := by
  unfold joinOf
  split
  · exact Join.noConfusion
  · exact Join.noConfusion

/-- A live session over a table resolves a record to what the table makes of it. -/
theorem resolveRecord_spec (h : Idle table limits s) (record : Record) :
    (s.resolveRecord record).1.map ResolvedRecord.erased = table.resolved limits s.caches record ∧
      ∃ fronts fault,
        Served table limits (distinctActors record.references) fronts fault s
          (s.resolveRecord record).2 := by
  obtain ⟨fronts, fault, hserved, hcalls⟩ :=
    joined_spec (joinOf_ne_never record) h (pairwise_distinctActors record.references)
  have hfailure := failure?_eq (joinOf_ne_never record) hcalls
  have hfirst := hserved.answered.fault_eq
  unfold ObjectTable.resolved
  cases hrefused : (distinctActors record.references).find?
      fun r => (table.grip? s.caches r).isNone with
  | some reference =>
    rw [hrefused] at hfirst
    subst hfirst
    simp only [resolveRecord, resolveReferences, hfailure, Option.map_some]
    exact ⟨rfl, fronts, _, hserved⟩
  | none =>
    rw [hrefused] at hfirst
    subst hfirst
    have hcontent := ResolvedFronts.resolveArguments_content fun reference hmem =>
      hserved.answered.answers (fun _ _ => ObjectTable.get?_of_grip?) (exists_mem_distinctActors hmem)
    simp only [resolveRecord, resolveReferences, hfailure, filterMap_toOption hcalls, Option.map_none]
    exact ⟨Record.erased_resolve hcontent, fronts, none, hserved⟩

end Session

/-- Where references have the types of their grips, it does not matter which fronts are
    cached. -/
theorem resolved_of_types {cached : ActorId → Bool} {record : Record}
    (htypes : ∀ reference ∈ record.references, ∀ grip,
      table.get? reference.actor = some grip → grip.type = reference.type) :
    table.resolved limits cached record =
      (contentOf limits table record.arguments).map (⟨record, ·⟩) := by
  have hfound : ∀ reference ∈ record.references,
      TableResolver.describe? table reference = table.get? reference.actor := by
    intro reference hmem
    cases hget : table.get? reference.actor with
    | none => exact TableResolver.describe?_eq_none hget
    | some grip => exact TableResolver.describe?_eq_some_iff.2 ⟨hget, htypes reference hmem grip hget⟩
  have hgrip : ∀ reference ∈ record.references,
      table.grip? cached reference = table.get? reference.actor := by
    intro reference hmem
    rw [ObjectTable.grip?, hfound reference hmem, ite_self]
  unfold ObjectTable.resolved
  split
  · next reference hfirst =>
    -- the record's arguments fail at the same reference as the joined calls
    have hundescribed : (Session.distinctActors record.references).find?
        (fun r => (table.get? r.actor).isNone) = some reference := by
      rw [← hfirst]
      exact List.find?_congr fun r hr => by rw [hgrip r (mem_of_mem_distinctActors hr)]
    rw [find?_distinctActors fun x y hxy => by rw [hxy]] at hundescribed
    have hrefused : record.references.find?
        (fun r => (TableResolver.describe? table r).isNone) = some reference := by
      rw [← hundescribed]
      exact List.find?_congr fun r hr => by rw [hfound r hr]
    rw [contentOf_eq_error hrefused]
    rfl
  · rfl

/-- A record is resolved from its own table to what another table makes of it, if both hold
    the same grips for its references. -/
theorem resolveOwn_spec {record : Record}
    (hsame : ∀ reference ∈ record.references,
      table.get? reference.actor = record.objects.get? reference.actor)
    (htypes : record.TypesAgree) :
    (record.resolveOwn limits).map ResolvedRecord.erased =
      (contentOf limits table record.arguments).map (⟨record, ·⟩) := by
  refine Record.erased_resolve ?_
  rw [contentOf_congr hsame]
  exact TableResolver.resolveArguments_content htypes

/-! ### One record after the other -/

/-- Records are exported alike from a session over a table and from their own tables, the
    cache being carried from one to the next. -/
theorem exportSlots_eq (h : Idle table limits s) {entries : List (String × Record)}
    (hsame : ∀ entry ∈ entries, ∀ reference ∈ entry.2.references,
      table.get? reference.actor = entry.2.objects.get? reference.actor)
    (htypes : ∀ entry ∈ entries, entry.2.TypesAgree) (ids : IdSource) :
    (exportSlots Session.resolveRecord ids s entries).1.map (fun e => (e.1, e.2.content)) =
        (exportSlots (fun (_ : Unit) record => (record.resolveOwn limits, ())) ids ()
          entries).1.map (fun e => (e.1, e.2.content)) ∧
      (exportSlots Session.resolveRecord ids s entries).2.1 =
        (exportSlots (fun (_ : Unit) record => (record.resolveOwn limits, ())) ids ()
          entries).2.1 := by
  induction entries generalizing s ids with
  | nil => exact ⟨rfl, rfl⟩
  | cons entry rest ih =>
    obtain ⟨key, record⟩ := entry
    have hrecord := hsame (key, record) List.mem_cons_self
    have hagree := htypes (key, record) List.mem_cons_self
    obtain ⟨hlive, fronts, fault, hserved⟩ := Session.resolveRecord_spec h record
    rw [resolved_of_types fun reference hmem grip hgrip =>
      hagree reference hmem grip ((hrecord reference hmem).symm.trans hgrip)] at hlive
    obtain ⟨hslot, hids⟩ :=
      settleSlot_congr (hlive.trans (resolveOwn_spec hrecord hagree).symm) ids record
    obtain ⟨hslots, hafter⟩ := ih hserved.idle
      (fun entry hmem => hsame entry (List.mem_cons_of_mem _ hmem))
      (fun entry hmem => htypes entry (List.mem_cons_of_mem _ hmem))
      (settleSlot ids record (record.resolveOwn limits)).2
    simp only [exportSlots, List.map_cons, hids, hslot]
    exact ⟨congrArg _ hslots, hafter⟩

/-- Exporting a store through a fresh session over a table gives the same slots as exporting
    it from its records' own tables, up to the identities of fronts, and leaves the same
    ids, provided that the table holds the grips of the records' references and that these
    have the types of their grips. -/
theorem Session.export_eq (store : Store) (limits : Limits) (ids : IdSource) (table : ObjectTable)
    (hsame : ∀ entry ∈ store.entries, ∀ reference ∈ entry.2.references,
      table.get? reference.actor = entry.2.objects.get? reference.actor)
    (htypes : ∀ entry ∈ store.entries, entry.2.TypesAgree) :
    (({ limits := limits, source := .ofTable table } : Session).export store ids).1.content =
        (store.export ids limits).1.content ∧
      (({ limits := limits, source := .ofTable table } : Session).export store ids).2.1 =
        (store.export ids limits).2 := by
  obtain ⟨hslots, hids⟩ := exportSlots_eq (idle_start table limits) hsame htypes ids
  obtain ⟨hlive, hafter⟩ := Exported.holds_exportEntries Session.resolveRecord ids
    { limits := limits, source := .ofTable table } store
  obtain ⟨hown, hafter'⟩ := Exported.holds_exportEntries
    (fun (_ : Unit) record => (record.resolveOwn limits, ())) ids () store
  have hcontent := hlive.content
  rw [hslots] at hcontent
  refine ⟨hcontent.unique hown.content, ?_⟩
  have hdrawn := (congrArg Prod.fst hafter).trans hids
  exact hdrawn.trans (congrArg Prod.fst hafter').symm

/-- The table of one symbol. -/
def symbolTable : ObjectTable := .ofList [.symbol ⟨"s"⟩ none]

/-- A call with the symbol, twice. -/
def symbolCall : Record where
  kind := .bare .log
  arguments := [.reference ⟨⟨"s"⟩, .symbol⟩, .reference ⟨⟨"s"⟩, .symbol⟩]
  objects := symbolTable

/-- A store with a record that cannot be resolved before one that can. -/
def symbolStore : Store :=
  { records := .ofList [("first", Record.sample), ("second", symbolCall)] }

theorem mem_references_symbolCall {reference : Reference} (h : reference ∈ symbolCall.references) :
    reference = ⟨⟨"s"⟩, .symbol⟩ := by
  rcases List.mem_cons.1 h with h | h
  · exact h
  · exact List.mem_singleton.1 h

theorem Session.export_symbolStore :
    (({ limits := {}, source := .ofTable symbolTable } : Session).export symbolStore
        (.sequential 1)).1.content = (symbolStore.export (.sequential 1) {}).1.content ∧
      (({ limits := {}, source := .ofTable symbolTable } : Session).export symbolStore
        (.sequential 1)).2.1 = (symbolStore.export (.sequential 1) {}).2 := by
  have hentries : ∀ entry ∈ symbolStore.entries,
      entry = ("first", Record.sample) ∨ entry = ("second", symbolCall) := by
    intro entry hmem
    rcases List.mem_cons.1 hmem with h | h
    · exact .inl h
    · exact .inr (List.mem_singleton.1 h)
  refine Session.export_eq symbolStore {} (.sequential 1) symbolTable ?_ ?_
  · intro entry hmem reference href
    rcases hentries entry hmem with rfl | rfl
    · rcases Record.mem_references_sample href with rfl | rfl
      · rfl
      · rfl
    · rw [mem_references_symbolCall href]
      rfl
  · intro entry hmem
    rcases hentries entry hmem with rfl | rfl
    · exact Record.sample_typesAgree
    · intro reference href grip hget
      rw [mem_references_symbolCall href] at hget ⊢
      cases hget
      rfl

end SingleFlight

end Console
