import Console.Proofs.Fixture.Layout
import Console.Proofs.Store

/-! # What the two layouts have in common

    The same entries are read from a text in either layout, whether they repeat keys or are
    no packets: each text is taken for the layout that it is in, and both readers ask the
    store for the same entries in the same order (`read_mapText`, `read_linesText`). What
    comes of these is said once:

    - `Fits`: entries that can all be stored, so that the store keeps what they brought,
    - `Refused`: why an entry behind entries that fit cannot be,
    - `ingestAll_spec`: entries fit, or there is a first one that is refused.
-/

namespace Console

namespace Fixture

variable {mode : InsertMode} {entries before : List (String × Json)} {entry : String × Json}
  {fault : Fault}

/-! ### Storing entries -/

/-- Says that entries can be stored one after the other: their packets are records, and in
    strict mode no key is repeated. -/
structure Fits (mode : InsertMode) (entries : List (String × Json)) : Prop where
  records : ∀ entry ∈ entries, ∃ record, Record.ofPacket entry.2 = .ok record
  keys : mode = .strict → (entries.map Prod.fst).Nodup

/-- Says for which fault an entry is refused behind others. -/
inductive Refused (mode : InsertMode) (before : List (String × Json)) (entry : String × Json) :
    Fault → Prop
  | malformed {fault : Fault} : Record.ofPacket entry.2 = .error fault → Refused mode before entry fault
  | taken {record : Record} : Record.ofPacket entry.2 = .ok record → mode = .strict →
      entry.1 ∈ before.map Prod.fst → Refused mode before entry (.duplicateKey entry.1)

/-- The operations that entries ask of a store. -/
def operationsOf (entries : List (String × Json)) : List Store.Operation :=
  entries.map fun entry => .ingest entry.1 entry.2

theorem operationsOf_concat (entries : List (String × Json)) (entry : String × Json) :
    operationsOf (entries ++ [entry]) = operationsOf entries ++ [.ingest entry.1 entry.2] := by
  simp [operationsOf]

theorem fits_nil (mode : InsertMode) : Fits mode [] where
  records := fun _ h => nomatch h
  keys := fun _ => List.nodup_nil

/-- Behind entries that fit, an entry is refused or fits too. -/
theorem refused_or_fits (h : Fits mode entries) (entry : String × Json) :
    (∃ fault, Refused mode entries entry fault) ∨ Fits mode (entries ++ [entry]) := by
  cases hrecord : Record.ofPacket entry.2 with
  | error fault => exact .inl ⟨fault, .malformed hrecord⟩
  | ok record =>
    by_cases htaken : mode = .strict ∧ entry.1 ∈ entries.map Prod.fst
    · exact .inl ⟨_, .taken hrecord htaken.1 htaken.2⟩
    · refine .inr ⟨fun other hmem => ?_, fun hstrict => ?_⟩
      · rcases List.mem_append.1 hmem with hmem | hmem
        · exact h.records other hmem
        · rw [List.mem_singleton.1 hmem]
          exact ⟨record, hrecord⟩
      · have hnew : entry.1 ∉ entries.map Prod.fst := fun hmem => htaken ⟨hstrict, hmem⟩
        rw [List.map_append, List.map_singleton, ← List.concat_eq_append]
        exact (h.keys hstrict).concat hnew

theorem mem_keys_of_kept {store : Store} (h : Store.Kept mode (operationsOf entries) store) {key : String} :
    key ∈ store.keys ↔ key ∈ entries.map Prod.fst := by
  rw [Store.mem_keys_iff h]
  simp [operationsOf, Store.Operation.key]

/-- Storing an entry is the operation that it asks for; a fault is named by its key. -/
theorem ingest_eq_perform (store : Store) (entry : String × Json) :
    ingest store entry.1 entry.2 =
      ((store.perform (.ingest entry.1 entry.2)).1.mapError (.record entry.1)).map
        fun _ => (store.perform (.ingest entry.1 entry.2)).2 := by
  simp only [ingest, Store.perform]
  cases store.ingest entry.1 entry.2 with
  | mk result changed =>
    cases result with
    | error fault => rfl
    | ok => rfl

/-- An entry that fits behind those stored is stored. -/
theorem exists_ingest_of_fits {store : Store} (hkept : Store.Kept mode (operationsOf entries) store)
    (h : Fits mode (entries ++ [entry])) : ∃ changed, ingest store entry.1 entry.2 = .ok changed ∧
      Store.Kept mode (operationsOf (entries ++ [entry])) changed := by
  obtain ⟨record, hrecord⟩ := h.records entry (by simp)
  have hfree : ¬ (store.mode = .strict ∧ entry.1 ∈ store.keys) := by
    rintro ⟨hstrict, hmem⟩
    have hnodup := h.keys (hkept.mode_eq ▸ hstrict)
    rw [List.map_append, List.map_singleton, ← List.concat_eq_append, List.nodup_concat] at hnodup
    exact hnodup.1 ((mem_keys_of_kept hkept).1 hmem)
  have hresult : (store.perform (.ingest entry.1 entry.2)).1 = .ok () := by
    rw [Store.result_perform]
    simp only [Store.Operation.record, hrecord]
    exact if_neg hfree
  refine ⟨(store.perform (.ingest entry.1 entry.2)).2, ?_, ?_⟩
  · rw [ingest_eq_perform, hresult]
    rfl
  · rw [operationsOf_concat]
    exact hkept.perform hresult

/-- An entry that is refused behind those stored fails, for that fault and under its key. -/
theorem ingest_of_refused {store : Store} (hkept : Store.Kept mode (operationsOf entries) store)
    (h : Refused mode entries entry fault) :
    ingest store entry.1 entry.2 = .error (.record entry.1 fault) := by
  have hresult : (store.perform (.ingest entry.1 entry.2)).1 = .error fault := by
    rw [Store.result_perform]
    cases h with
    | malformed hrecord => simp only [Store.Operation.record, hrecord]
    | taken hrecord hstrict hmem =>
      simp only [Store.Operation.record, hrecord]
      exact if_pos ⟨hkept.mode_eq.trans hstrict, (mem_keys_of_kept hkept).2 hmem⟩
  rw [ingest_eq_perform, hresult]
  rfl

theorem ingestAll_append (store : Store) (xs ys : List (String × Json)) :
    ingestAll store (xs ++ ys) = (ingestAll store xs).bind fun changed => ingestAll changed ys := by
  induction xs generalizing store with
  | nil => rfl
  | cons entry rest ih =>
    rw [List.cons_append, ingestAll, ingestAll]
    cases ingest store entry.1 entry.2 with
    | error => rfl
    | ok changed => exact ih changed

/-- Entries that fit are all stored. -/
theorem exists_ingestAll_of_fits (h : Fits mode entries) : ∃ store,
    ingestAll { mode := mode } entries = .ok store ∧ Store.Kept mode (operationsOf entries) store := by
  induction entries using List.reverseRecOn with
  | nil => exact ⟨{ mode := mode }, rfl, Store.kept_start mode⟩
  | append_singleton entries entry ih =>
    have hearlier : Fits mode entries := by
      refine ⟨fun other hmem => h.records other (List.mem_append_left _ hmem), fun hstrict => ?_⟩
      have hnodup := h.keys hstrict
      rw [List.map_append] at hnodup
      exact hnodup.of_append_left
    obtain ⟨store, hstore, hkept⟩ := ih hearlier
    obtain ⟨changed, hchanged, hafter⟩ := exists_ingest_of_fits hkept h
    refine ⟨changed, ?_, hafter⟩
    rw [ingestAll_append, hstore]
    show ingestAll store [entry] = _
    rw [ingestAll, hchanged]
    rfl

/-- Of entries that do not all fit, there is a first one that is refused. -/
theorem exists_refused (mode : InsertMode) (entries : List (String × Json)) : Fits mode entries ∨
    ∃ before entry after fault, entries = before ++ entry :: after ∧ Fits mode before ∧
      Refused mode before entry fault := by
  induction entries using List.reverseRecOn with
  | nil => exact .inl (fits_nil mode)
  | append_singleton entries entry ih =>
    -- the last entry matters only if all before it fit
    rcases ih with hfits | ⟨before, first, after, fault, rfl, hfits, hrefused⟩
    · rcases refused_or_fits hfits entry with ⟨fault, hrefused⟩ | hall
      · exact .inr ⟨entries, entry, [], fault, rfl, hfits, hrefused⟩
      · exact .inl hall
    · exact .inr ⟨before, first, after ++ [entry], fault, by simp, hfits, hrefused⟩

/-- Entries are all stored, or the first that is refused tells why. -/
theorem ingestAll_spec (mode : InsertMode) (entries : List (String × Json)) :
    (Fits mode entries ∧ ∃ store, ingestAll { mode := mode } entries = .ok store ∧
      Store.Kept mode (operationsOf entries) store) ∨
    ∃ before entry after fault, entries = before ++ entry :: after ∧ Fits mode before ∧
      Refused mode before entry fault ∧
      ingestAll { mode := mode } entries = .error (.record entry.1 fault) := by
  rcases exists_refused mode entries with
    hfits | ⟨before, entry, after, fault, rfl, hfits, hrefused⟩
  · exact .inl ⟨hfits, exists_ingestAll_of_fits hfits⟩
  · refine .inr ⟨before, entry, after, fault, rfl, hfits, hrefused, ?_⟩
    obtain ⟨store, hstore, hkept⟩ := exists_ingestAll_of_fits hfits
    rw [ingestAll_append, hstore]
    show ingestAll store (entry :: after) = _
    rw [ingestAll, ingest_of_refused hkept hrefused]
    rfl

/-! ### Reading entries -/

/-- Says that packets are objects, and that each, one level deep in a text, reads back from what
    is printed of it. -/
structure Printed (entries : List (String × Json)) : Prop where
  objects : ∀ entry ∈ entries, ∃ members, entry.2 = .object members
  rereads : ∀ entry ∈ entries, Json.parseWithin? (Json.nesting - 1) entry.2.compact = some entry.2

namespace Printed

theorem of_cons {rest : List (String × Json)} (h : Printed (entry :: rest)) : Printed rest where
  objects := fun other hmem => h.objects other (List.mem_cons_of_mem _ hmem)
  rereads := fun other hmem => h.rereads other (List.mem_cons_of_mem _ hmem)

theorem reread (h : Printed entries) (hmem : entry ∈ entries) :
    Json.reread (Json.nesting - 1) entry.2 = some entry.2 := by
  rw [← Json.parseWithin?_compact]
  exact h.rereads entry hmem

theorem rereadMembers (h : Printed entries) :
    Json.rereadMembers (Json.nesting - 1) entries = some entries := by
  induction entries with
  | nil => rfl
  | cons entry rest ih =>
    rw [Json.rereadMembers, h.reread List.mem_cons_self, ih h.of_cons]
    rfl

theorem parse?_lineOf (h : Printed entries) (hmem : entry ∈ entries) :
    Json.parse? (String.ofList (lineOf entry)) = some (entryOf entry.1 entry.2) := by
  rw [Fixture.parse?_lineOf, h.reread hmem, Option.map_some]

end Printed

variable {text : String}

/-- Members of a map are stored as entries. -/
theorem read_mapText {s : Json.Spacing} {blanks : List Char} (h : Printed entries)
    (htext : text.toList = Json.spell s 0 (.object entries) ++ blanks)
    (hblanks : ∀ c ∈ blanks, Json.isSpace c) (mode : InsertMode) :
    read mode text = ingestAll { mode := mode } entries := by
  have hmembers : Json.parseMembers? text = some entries := by
    rw [Json.parseMembers?_of_spell htext hblanks]
    exact h.rereadMembers
  -- whatever their keys are, the members of the map are no entry: none of them is a text
  have htexts : ∀ entry ∈ entries, ∀ s, entry.2 ≠ .string s := by
    intro entry hmem s hstring
    obtain ⟨members, hobject⟩ := h.objects entry hmem
    rw [hobject] at hstring
    cases hstring
  rw [read, isLines_of_parseMembers? hmembers htexts, if_neg Bool.false_ne_true, readMap, hmembers]

/-- Lines with entries on them are stored as the entries. -/
theorem ingestLines_map_lineOf (store : Store) (h : Printed entries) (number : Nat) :
    ingestLines store number (entries.map lineOf) = ingestAll store entries := by
  induction entries generalizing store number with
  | nil => rfl
  | cons entry rest ih =>
    have hentry : entryOfLine number (lineOf entry) = .ok (entry.1, entry.2) :=
      entryOfLine_eq_ok_iff.2 ⟨_, h.parse?_lineOf List.mem_cons_self, rfl, rfl⟩
    rw [List.map_cons, ingestLines, not_blank_lineOf entry, if_neg Bool.false_ne_true, hentry, ingestAll]
    simp only [ih _ h.of_cons]
    rfl

/-- Entries on lines are stored as entries, if there is one. -/
theorem read_linesText (h : Printed entries) (hne : entries ≠ [])
    (htext : Lined text.toList (entries.map lineOf)) (mode : InsertMode) :
    read mode text = ingestAll { mode := mode } entries := by
  -- the first entry has two members, so that it does not matter whether others follow
  have hlines : isLines text = true := by
    obtain ⟨entry, rest, rfl⟩ := List.exists_cons_of_ne_nil hne
    have hfirst : Lined text.toList ([] ++ lineOf entry :: rest.map lineOf) := htext
    obtain ⟨lead, tail, htail, hall⟩ := hfirst.exists_split
    have hlead : lead.all Json.isSpace := (hall Json.isSpace (by decide) (by decide)).1
    obtain ⟨behind, hfront, -⟩ :=
      exists_readLeading?_of_line (h.parse?_lineOf List.mem_cons_self) hlead tail
    rw [← htail] at hfront
    rw [isLines_of_object hfront]
    exact Bool.or_true _
  rw [read, hlines, if_pos rfl, readLines,
    htext.splitLines_eq (List.forall_mem_map.2 fun entry _ => unbroken_lineOf entry),
    ingestLines_map_lineOf _ h]

/-! ### Both layouts -/

/-- Entries with repeated keys or malformed packets among them are read alike as a map, however
    it is spaced, and as lines, whatever ends these: all of them are stored, a key that is
    used again as the mode has it, or the first one that is refused is told by its key and
    its fault. -/
theorem read_eq_read (mode : InsertMode) {asMap asLines : String} {s : Json.Spacing} {blanks : List Char}
    (hne : entries ≠ []) (h : Printed entries)
    (hmap : asMap.toList = Json.spell s 0 (.object entries) ++ blanks)
    (hblanks : ∀ c ∈ blanks, Json.isSpace c)
    (hlines : Lined asLines.toList (entries.map lineOf)) :
    read mode asMap = read mode asLines ∧
    ((Fits mode entries ∧ ∃ store, read mode asMap = .ok store ∧
        Store.Kept mode (operationsOf entries) store) ∨
      ∃ before entry after fault, entries = before ++ entry :: after ∧ Fits mode before ∧
        Refused mode before entry fault ∧ read mode asMap = .error (.record entry.1 fault)) := by
  have hread : read mode asMap = ingestAll { mode := mode } entries :=
    read_mapText h hmap hblanks mode
  constructor
  · rw [hread, read_linesText h hne hlines]
  · rw [hread]
    exact ingestAll_spec mode entries

/-- Entries with a key used again before a packet that is malformed. -/
def disputed : List (String × Json) :=
  [("a", .object [("level", .string "log"), ("arguments", .array [])]),
    ("b", .object [("level", .string "warn"), ("arguments", .array [])]),
    ("a", .object [("level", .string "info"), ("arguments", .array [])]),
    ("c", .object [])]

theorem disputed_read_alike :
    read .strict (Json.object disputed).pretty = read .strict (linesText disputed) ∧
    read .overwrite (Json.object disputed).pretty = read .overwrite (linesText disputed) ∧
    read .strict (linesText disputed) = .error (.record "a" (.duplicateKey "a")) ∧
    ∃ reason, read .overwrite (linesText disputed) = .error (.record "c" (.malformed reason)) := by
  have hprinted : Printed disputed := by
    constructor
    · intro entry hmem
      simp only [disputed, List.mem_cons, List.not_mem_nil, or_false] at hmem
      rcases hmem with rfl | rfl | rfl | rfl <;> exact ⟨_, rfl⟩
    · intro entry hmem
      rw [Json.parseWithin?_compact]
      simp only [disputed, List.mem_cons, List.not_mem_nil, or_false] at hmem
      rcases hmem with rfl | rfl | rfl | rfl <;> rfl
  have hmap : (Json.object disputed).pretty.toList =
      Json.spell Json.indented 0 (.object disputed) ++ [] := by
    rw [Json.pretty, Json.toList_prettyAt, List.append_nil]
  have hne : disputed ≠ [] := by simp [disputed]
  have hagree := fun mode => read_eq_read mode hne hprinted hmap (List.forall_mem_nil _)
    (lined_linesText disputed)
  refine ⟨(hagree .strict).1, (hagree .overwrite).1, ?_, ?_⟩
  · rw [read_linesText hprinted hne (lined_linesText disputed)]
    rfl
  · rw [read_linesText hprinted hne (lined_linesText disputed)]
    exact ⟨_, rfl⟩

end Fixture

end Console
