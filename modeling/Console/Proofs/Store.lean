import Console.Proofs.OrderedMap
import Console.Proofs.Record.RoundTrip
import Console.Store

/-! # Runs of operations on a store

    A store is changed by putting records and by ingesting packets. An operation that is
    refused leaves the store as it was, so that after any run of operations the store is
    known from those that succeeded (`Store.Kept`):

    - its keys are theirs, each in the place of its first success,
    - the record of a key is that of the last success where keys may be used again, and of
      the first, which is the only one, where they may not.

    `Store.result_perform` says which operations succeed, `Store.Kept.perform` is one step
    and `Store.Kept.after` a whole run.
-/

namespace Console

namespace Store

/-! ### Operations -/

/-- A change that is asked of a store. -/
inductive Operation where
  | put (key : String) (record : Record)
  | ingest (key : String) (packet : Json)

namespace Operation

/-- The key that an operation names. -/
def key : Operation → String
  | put key _ => key
  | ingest key _ => key

/-- The record that an operation brings, or why its packet is no record. -/
def record : Operation → Except Fault Record
  | put _ record => .ok record
  | ingest _ packet => Record.ofPacket packet

/-- The record, if there is one. -/
def record? (operation : Operation) : Option Record := operation.record.toOption

/-- Only a malformed packet is no record. -/
theorem exists_malformed {operation : Operation} {fault : Fault}
    (h : operation.record = .error fault) : ∃ reason, fault = .malformed reason := by
  cases operation with
  | put => cases h
  | ingest key packet =>
    simp only [record, Record.ofPacket] at h
    split at h
    · exact ⟨_, (Except.error.inj h).symm⟩
    · next fields _ =>
      cases hrecord : fields.toRecord with
      | error reason =>
        rw [hrecord] at h
        exact ⟨reason, (Except.error.inj h).symm⟩
      | ok =>
        rw [hrecord] at h
        cases h

end Operation

/-- What an operation comes to, and the store afterwards. -/
def perform (store : Store) : Operation → Except Fault Unit × Store
  | .put key record => store.put key record
  | .ingest key packet => store.ingest key packet

/-- The store after operations in order. -/
def after (store : Store) (operations : List Operation) : Store :=
  operations.foldl (fun store operation => (store.perform operation).2) store

/-- The operations that succeed, in order. -/
def successes (store : Store) : List Operation → List Operation
  | [] => []
  | operation :: rest =>
    match store.perform operation with
    | (.ok (), changed) => operation :: changed.successes rest
    | (.error _, same) => same.successes rest

variable {store : Store} {operation : Operation} {mode : InsertMode}

/-! ### One operation -/

theorem contains_eq (store : Store) (key : String) : store.contains key = decide (key ∈ store.keys) := by
  rw [Bool.eq_iff_iff, decide_eq_true_iff]
  exact OrderedMap.contains_iff_mem_keys

/-- A record is inserted, unless its key is taken in a strict store. -/
theorem put_eq (store : Store) (key : String) (record : Record) :
    store.put key record =
      if store.mode = .strict ∧ key ∈ store.keys then (.error (.duplicateKey key), store)
      else (.ok (), { store with records := store.records.insert key record }) := by
  have htaken : store.records.contains key = decide (key ∈ store.keys) := store.contains_eq key
  simp only [put, htaken, decide_eq_true_eq]

/-- What an operation does: it inserts its record, unless it brings none or its key is taken
    in a strict store. -/
theorem perform_eq (store : Store) (operation : Operation) :
    store.perform operation =
      match operation.record with
      | .error fault => (.error fault, store)
      | .ok record =>
        if store.mode = .strict ∧ operation.key ∈ store.keys then
          (.error (.duplicateKey operation.key), store)
        else (.ok (), { store with records := store.records.insert operation.key record }) := by
  cases operation with
  | put key record => exact store.put_eq key record
  | ingest key packet =>
    unfold perform ingest
    simp only [Operation.record, Operation.key]
    cases Record.ofPacket packet with
    | error fault => rfl
    | ok record => exact store.put_eq key record

/-- An operation succeeds if it brings a record, unless its key is taken in a strict
    store. -/
theorem result_perform (store : Store) (operation : Operation) :
    (store.perform operation).1 =
      match operation.record with
      | .error fault => .error fault
      | .ok _ =>
        if store.mode = .strict ∧ operation.key ∈ store.keys then
          .error (.duplicateKey operation.key)
        else .ok () := by
  rw [perform_eq]
  cases operation.record with
  | error => rfl
  | ok record => simp only [apply_ite Prod.fst]

/-- A refused operation changes nothing. -/
theorem perform_of_error {fault : Fault} (h : (store.perform operation).1 = .error fault) :
    (store.perform operation).2 = store := by
  rw [perform_eq] at h ⊢
  cases hrecord : operation.record with
  | error => rfl
  | ok record =>
    simp only [hrecord] at h ⊢
    split at h
    · next htaken => rw [if_pos htaken]
    · cases h

/-- An operation that succeeds inserts its record, and names no key that a strict store
    has. -/
theorem perform_of_ok (h : (store.perform operation).1 = .ok ()) :
    ∃ record, operation.record = .ok record ∧
      (store.mode = .strict → operation.key ∉ store.keys) ∧
      (store.perform operation).2 =
        { store with records := store.records.insert operation.key record } := by
  rw [perform_eq] at h ⊢
  cases hrecord : operation.record with
  | error =>
    rw [hrecord] at h
    cases h
  | ok record =>
    simp only [hrecord] at h ⊢
    split at h
    · cases h
    · next hfree =>
      rw [if_neg hfree]
      exact ⟨record, rfl, fun hstrict hmem => hfree ⟨hstrict, hmem⟩, rfl⟩

/-! ### What is kept -/

/-- Of the successes under one key, the one whose record a store keeps. -/
def pick (mode : InsertMode) (operations : List Operation) : Option Operation :=
  match mode with
  | .overwrite => operations.getLast?
  | .strict => operations.head?

/-- Says that a store is what the given successes made of an empty one. -/
structure Kept (mode : InsertMode) (done : List Operation) (store : Store) : Prop where
  mode_eq : store.mode = mode
  keys_eq : store.keys = (done.map Operation.key).eraseDups
  get?_eq : ∀ key, store.get? key =
    (pick mode (done.filter fun operation => operation.key = key)).bind Operation.record?

theorem kept_start (mode : InsertMode) : Kept mode [] { mode := mode } where
  mode_eq := rfl
  keys_eq := rfl
  get?_eq := fun _ => by cases mode <;> rfl

theorem mem_keys_iff {done : List Operation} (h : Kept mode done store) {key : String} :
    key ∈ store.keys ↔ ∃ operation ∈ done, operation.key = key := by
  rw [h.keys_eq, List.mem_eraseDups, List.mem_map]

/-- Of the successes under its key the last one is kept, if a strict store had none before. -/
theorem pick_concat_self {done : List Operation}
    (hnew : mode = .strict → ∀ earlier ∈ done, earlier.key ≠ operation.key) :
    pick mode ((done ++ [operation]).filter fun o => o.key = operation.key) = some operation := by
  rw [List.filter_append, List.filter_cons_of_pos (by simp), List.filter_nil]
  cases mode with
  | overwrite => simp [pick]
  | strict =>
    have hnone : done.filter (fun o => o.key = operation.key) = [] := by
      rw [List.filter_eq_nil_iff]
      intro earlier hearlier
      simpa using hnew rfl earlier hearlier
    simp [pick, hnone]

/-- A success more: its key goes last if it is new, and its record is the one kept. -/
theorem Kept.perform {done : List Operation} (h : Kept mode done store)
    (hok : (store.perform operation).1 = .ok ()) :
    Kept mode (done ++ [operation]) (store.perform operation).2 := by
  obtain ⟨record, hrecord, hstrict, hafter⟩ := perform_of_ok hok
  rw [hafter]
  constructor
  case mode_eq => exact h.mode_eq
  case keys_eq =>
    rw [List.map_append, List.map_singleton]
    exact OrderedMap.keys_insert_of_eraseDups h.keys_eq operation.key record
  case get?_eq =>
    intro key
    by_cases hkey : operation.key = key
    · subst hkey
      have hself : ({ store with records := store.records.insert operation.key record } : Store).get?
          operation.key = some record := store.records.get?_insert_self _ _
      have hpick : pick mode ((done ++ [operation]).filter fun o => o.key = operation.key) =
          some operation := by
        refine pick_concat_self fun hmode earlier hearlier hkey => ?_
        exact hstrict (h.mode_eq.trans hmode) ((mem_keys_iff h).2 ⟨earlier, hearlier, hkey⟩)
      rw [hself, hpick]
      simp [Operation.record?, hrecord, Except.toOption]
    · have hother : ({ store with records := store.records.insert operation.key record } : Store).get?
          key = store.get? key := store.records.get?_insert_ne record (Ne.symm hkey)
      rw [hother, List.filter_append, List.filter_cons_of_neg (by simpa using hkey),
        List.filter_nil, List.append_nil]
      exact h.get?_eq key

/-- A whole run. -/
theorem Kept.after {done : List Operation} (h : Kept mode done store)
    (operations : List Operation) :
    Kept mode (done ++ store.successes operations) (store.after operations) := by
  induction operations generalizing store done with
  | nil => simpa [successes, Store.after] using h
  | cons operation rest ih =>
    cases hperform : store.perform operation with
    | mk result changed =>
      have hstep : store.after (operation :: rest) = changed.after rest := by
        simp only [Store.after, List.foldl_cons, hperform]
      rw [hstep]
      cases result with
      | ok =>
        have hkept : Kept mode (done ++ [operation]) (store.perform operation).2 :=
          h.perform (by rw [hperform])
        rw [hperform] at hkept
        simpa only [successes, hperform, List.append_assoc, List.singleton_append] using ih hkept
      | error fault =>
        have hsame : changed = store := by
          have hresult : (store.perform operation).1 = .error fault := by rw [hperform]
          have hafter := perform_of_error hresult
          rwa [hperform] at hafter
        subst hsame
        simpa only [successes, hperform] using ih h

/-! ### All runs -/

/-- After any run of operations on a new store, the keys are those of the successful ones in
    the order of their first success; entries and look-ups agree; a key has the record of
    its last success, or of its first in a strict store; and of a further operation it is
    known whether it succeeds, that only a malformed packet or a taken key in a strict
    store is refused, and that a refusal leaves the store as it was. -/
theorem after_spec (mode : InsertMode) (operations : List Operation) :
    let store := ({ mode := mode } : Store).after operations
    let done := ({ mode := mode } : Store).successes operations
    store.mode = mode ∧
    store.keys = (done.map Operation.key).eraseDups ∧ store.keys.Nodup ∧
    store.entries.map Prod.fst = store.keys ∧
    (∀ key record, (key, record) ∈ store.entries ↔ store.get? key = some record) ∧
    (∀ key, store.get? key =
      (pick mode (done.filter fun operation => operation.key = key)).bind Operation.record?) ∧
    ∀ operation : Operation,
      (store.perform operation).1 = (match operation.record with
        | .error fault => .error fault
        | .ok _ =>
          if mode = .strict ∧ operation.key ∈ store.keys then
            .error (.duplicateKey operation.key)
          else .ok ()) ∧
      (∀ fault, operation.record = .error fault → ∃ reason, fault = .malformed reason) ∧
      ∀ fault, (store.perform operation).1 = .error fault → (store.perform operation).2 = store := by
  have hkept := (kept_start mode).after operations
  rw [List.nil_append] at hkept
  refine ⟨hkept.mode_eq, hkept.keys_eq, OrderedMap.nodup _, rfl,
    fun _ _ => OrderedMap.get?_eq_some_iff.symm, hkept.get?_eq, fun operation => ⟨?_, ?_, ?_⟩⟩
  · rw [result_perform, hkept.mode_eq]
  · exact fun fault => Operation.exists_malformed
  · exact fun fault => perform_of_error

end Store

end Console
