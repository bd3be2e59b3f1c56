import Console.Command.Basic
import Console.Proofs.Views

/-! # What commands say of one store

    A check and the views of a store are made by separate passes over separate exports, and
    ids may differ between them. They agree because a record fails by itself or not at all,
    and because nothing that was prepared looks like a failure:

    - `Json.soleError?`: what an object says that has an error and nothing else,
    - `Slot.soleError?_toJson`: only failures are shown as such objects,
    - `failures_export`: the failures of an export are those of the records, whatever the ids,
    - `Command.check_agrees`: the check, the views and their single entries say the same.
-/

namespace Console

/-! ### Failures as they are shown -/

/-- What an object says that has an error and no other member. -/
def Json.soleError? : Json → Option Json
  | .object [(name, value)] => if name = "error" then some value else none
  | _ => none

/-- An object with several members is no failure. -/
theorem Json.soleError?_eq_none {members : List (String × Json)} (h : 2 ≤ members.length) :
    (Json.object members).soleError? = none := by
  match members, h with
  | _ :: _ :: _, _ => rfl

theorem Fault.soleError?_toJson (fault : Fault) :
    fault.toJson.soleError? = some (.string fault.message) := rfl

/-- Taking out a member leaves all others. -/
theorem Json.length_le_removeMember (name : String) (members : List (String × Json)) :
    members.length ≤ (Json.removeMember name members).length + 1 := by
  unfold Json.removeMember
  split
  · next hlast => rw [List.getLast?_eq_none_iff.1 hlast]; exact Nat.zero_le _
  · split
    · rw [List.length_dropLast]; omega
    · split
      · rw [List.length_map, List.length_dropLast]; omega
      · exact Nat.le_succ _

/-- A resolved record is shown with the level, the place and the time at least. -/
theorem ResolvedRecord.soleError?_toJson (packet : ResolvedRecord) :
    packet.toJson.soleError? = none := by
  refine Json.soleError?_eq_none ?_
  let members := packet.record.packetMembers (packet.arguments.map Parameter.toJson)
  have hmembers : 6 ≤ members.length := by
    simp only [members, Record.packetMembers, List.append_assoc, List.length_append, List.length_cons]
    omega
  have hleft : members.length ≤ (Json.removeMember "objects" members).length + 1 :=
    Json.length_le_removeMember "objects" members
  show 2 ≤ (Json.removeMember "objects" members).length
  omega

/-- A message is shown with its id and its text at least. -/
theorem Message.soleError?_toJson (message : Message) : message.toJson.soleError? = none := by
  refine Json.soleError?_eq_none ?_
  simp only [List.append_assoc, List.length_append, List.length_cons]
  omega

/-- Of what is no failure by itself, exactly the faults are shown as failures. -/
theorem soleError?_shownResult {α : Type} {toJson : α → Json}
    (hshown : ∀ x, (toJson x).soleError? = none) (result : Except Fault α) :
    (shownResult toJson (some result)).soleError? =
      (faultOf? result).map fun fault => .string fault.message := by
  cases result with
  | error fault => exact fault.soleError?_toJson
  | ok x => exact hshown x

/-- The views that show results show a failure exactly where there is a fault, and both the
    same. -/
theorem Slot.soleError?_toJson {slot : Slot} (h : slot.Coherent) {view : View} (hview : view ≠ .raw) :
    (slot.toJson view).soleError? = slot.fault?.map fun fault => .string fault.message := by
  cases view with
  | raw => exact absurd rfl hview
  | packets =>
    rw [fault?, ← h]
    exact soleError?_shownResult ResolvedRecord.soleError?_toJson slot.packet
  | messages => exact soleError?_shownResult Message.soleError?_toJson slot.message

/-- The entries that are shown as failures, with what they say. -/
def soleErrors (members : List (String × Json)) : List (String × Json) :=
  members.filterMap fun entry => entry.2.soleError?.map fun said => (entry.1, said)

theorem soleErrors_members {e : Exported} {slots : List (String × Slot)} (h : e.Holds slots)
    (hcoherent : ∀ entry ∈ slots, entry.2.Coherent) {view : View} (hview : view ≠ .raw) :
    soleErrors (e.members view) =
      e.failures.map fun entry => (entry.1, .string entry.2.message) := by
  rw [soleErrors, h.members_eq, h.failures_eq, List.filterMap_map, List.map_filterMap]
  refine List.filterMap_congr fun entry hmem => ?_
  show (entry.2.toJson view).soleError?.map _ = _
  rw [Slot.soleError?_toJson (hcoherent entry hmem) hview, Option.map_map, Option.map_map]
  rfl

/-- An export shows its failures, and nothing else, as failures. -/
theorem soleErrors_export (store : Store) (ids : IdSource) (limits : Limits) {view : View}
    (hview : view ≠ .raw) :
    soleErrors ((store.export ids limits).1.members view) =
      (store.export ids limits).1.failures.map fun entry => (entry.1, .string entry.2.message) :=
  soleErrors_members (holds_export store ids limits).1
    (coherent_exportOwn limits ids store.entries) hview

/-! ### Failures of records -/

/-- The fault with which a record fails by itself. -/
def Record.ownFault? (limits : Limits) (record : Record) : Option Fault :=
  match record.resolveOwn limits with
  | .error fault => some fault
  | .ok _ => none

theorem Record.fault?_ownSlot (limits : Limits) (ids : IdSource) (record : Record) :
    (record.ownSlot limits ids).1.fault? = record.ownFault? limits := by
  unfold ownSlot settleSlot ownFault?
  cases record.resolveOwn limits with
  | error => rfl
  | ok => rfl

/-- The faults of slots are those of their records, whatever ids are drawn. -/
theorem faults_exportOwn (limits : Limits) (ids : IdSource) (entries : List (String × Record)) :
    ((exportOwn limits ids entries).1.filterMap fun entry =>
        entry.2.fault?.map fun fault => (entry.1, fault)) =
      entries.filterMap fun entry => (entry.2.ownFault? limits).map fun fault => (entry.1, fault) := by
  induction entries generalizing ids with
  | nil => rfl
  | cons entry rest ih =>
    obtain ⟨key, record⟩ := entry
    simp only [exportOwn, List.filterMap_cons, record.fault?_ownSlot, ih]

/-- The failures of an export are those of its records, whatever ids are drawn. -/
theorem failures_export (store : Store) (ids : IdSource) (limits : Limits) :
    (store.export ids limits).1.failures =
      store.entries.filterMap fun entry =>
        (entry.2.ownFault? limits).map fun fault => (entry.1, fault) := by
  rw [(holds_export store ids limits).1.failures_eq]
  exact faults_exportOwn limits ids store.entries

theorem size_export (store : Store) (ids : IdSource) (limits : Limits) :
    (store.export ids limits).1.size = store.keys.length := by
  rw [Exported.size, raw_export]
  exact (List.length_map _).symm

/-! ### Commands -/

namespace Command

variable {settings : Settings} {store : Store} {ids : Option IdMode}

theorem keys_members_exportAll (settings : Settings) (ids : Option IdMode) (store : Store)
    (view : View) : ((exportAll settings ids store).members view).map Prod.fst = store.keys := by
  have hkeys : (exportAll settings ids store).keys = store.keys := keys_export store _ _
  rw [← hkeys, Exported.members, List.map_map]
  rfl

/-- What is asked for by its key is the entry that the whole view shows under it. -/
theorem run_view_eq_ok_iff {view : View} {key : String} {entry : Json} :
    run settings store (.view view (some key) ids) = .ok { output := entry } ↔
      (key, entry) ∈ (exportAll settings ids store).members view := by
  have hnodup : (((exportAll settings ids store).members view).map Prod.fst).Nodup := by
    rw [keys_members_exportAll]
    exact store.records.nodup
  simp only [run]
  constructor
  · intro hrun
    split at hrun
    · next found hfound =>
      cases hrun
      exact mem_of_lookupEntry hfound
    · cases hrun
  · intro hmem
    rw [lookupEntry_of_mem hnodup hmem]

/-- Only a key that the store lacks cannot be shown. -/
theorem run_view_eq_error_iff {view : View} {key : String} {fault : CommandFault} :
    run settings store (.view view (some key) ids) = .error fault ↔
      key ∉ store.keys ∧ fault = .noRecord key := by
  rw [← keys_members_exportAll settings ids store view]
  simp only [run]
  cases hfound : lookupEntry key ((exportAll settings ids store).members view) with
  | some entry =>
    have hmem := List.mem_map_of_mem (f := Prod.fst) (mem_of_lookupEntry hfound)
    simp [hmem]
  | none =>
    have hnot := lookupEntry_eq_none_iff.1 hfound
    simp [hnot, eq_comm]

/-- A check counts the records and lists, in the order of the store, those that fail by
    themselves; the views show exactly these as failures, with what the check says of them;
    and what a view shows of one key is the entry of the whole view. -/
theorem check_agrees (settings : Settings) (store : Store) (ids : Option IdMode) :
    ∃ (shown : View → List (String × Json)) (failures : List (String × Json)) (prepared : Nat),
      (∀ view, run settings store (.view view none ids) = .ok { output := .object (shown view) }) ∧
      (∀ view, (shown view).map Prod.fst = store.keys) ∧
      run settings store .check = .ok {
        output := .object [("records", .nat store.keys.length), ("prepared", .nat prepared),
          ("failures", .object failures)]
        ok := failures.isEmpty } ∧
      prepared + failures.length = store.keys.length ∧
      soleErrors (shown .messages) = failures ∧ soleErrors (shown .packets) = failures ∧
      failures = store.entries.filterMap (fun entry =>
        (entry.2.ownFault? settings.limits).map fun fault => (entry.1, .string fault.message)) ∧
      (∀ view key entry, run settings store (.view view (some key) ids) = .ok { output := entry } ↔
        (key, entry) ∈ shown view) ∧
      ∀ view key fault, run settings store (.view view (some key) ids) = .error fault ↔
        key ∉ store.keys ∧ fault = .noRecord key := by
  let checked := exportAll settings none store
  let failures := checked.failures.map fun entry => (entry.1, Json.string entry.2.message)
  have hsize : checked.size = store.keys.length := size_export store _ settings.limits
  have hle : checked.failures.length ≤ checked.size := by
    rw [hsize]
    simp only [checked, exportAll, failures_export, Store.keys, OrderedMap.keys, List.length_map]
    exact List.length_filterMap_le _ _
  -- the check draws ids of its own, but the failures are those of the records
  have hsame : (exportAll settings ids store).failures = checked.failures := by
    simp only [checked, exportAll, failures_export]
  have hsole : ∀ view, view ≠ View.raw →
      soleErrors ((exportAll settings ids store).members view) = failures := by
    intro view hview
    exact (soleErrors_export store _ settings.limits hview).trans (congrArg _ hsame)
  refine ⟨(exportAll settings ids store).members, failures, checked.size - checked.failures.length,
    fun view => rfl, keys_members_exportAll settings ids store, ?_, ?_, ?_, ?_, ?_,
    fun view key entry => run_view_eq_ok_iff, fun view key fault => run_view_eq_error_iff⟩
  · rw [← hsize]
    simp only [run, report, failures, List.isEmpty_map]
    rfl
  · rw [← hsize, List.length_map]
    omega
  · exact hsole .messages (by decide)
  · exact hsole .packets (by decide)
  · simp only [failures, checked, exportAll, failures_export, List.map_filterMap, Option.map_map]
    rfl

end Command

end Console
