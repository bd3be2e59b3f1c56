import Console.Proofs.Fixture.Lines
import Console.Proofs.Json.Continuation
import Console.Proofs.OrderedMap
import Console.Proofs.Record.RoundTrip

/-! # How the layout of a fixture is told

    The layout is told from the value at the front of a text and from whether anything stands
    behind it, but lines are read one by one. What both see is compared here, for texts that
    are read in one layout:

    - `front_of_readLines`: where the first entry stands among the lines it stands in the text,
      so that the value at the front of the text is that entry, or JSON does not take what is
      before it for blanks and there is no value at the front,
    - `read_of_readMap`: what is read as a map is never read as lines,
    - `read_of_readLines`: what is read as lines is taken for lines exactly if its lines show
      it (`ShowsLines`). All that were written do, but for those of an empty store.
-/

namespace Console

namespace Fixture

/-! ### Blanks that are none of JSON -/

section
variable {c : Char} {text : List Char}

/-- A blank is none of the characters that are no blanks. -/
theorem ne_of_blank (h : Unicode.blank.contains c) {d : Char} (hd : Unicode.blank.contains d = false) :
    c ≠ d := by
  rintro rfl
  rw [h] at hd
  cases hd

theorem isDigit_of_blank (h : Unicode.blank.contains c) : c.isDigit = false := by
  cases hdigit : c.isDigit with
  | false => rfl
  | true =>
    simp only [Char.isDigit, Bool.and_eq_true, decide_eq_true_eq, UInt32.le_iff_toNat_le] at hdigit
    have hlow : 48 ≤ c.toNat := hdigit.1
    have hhigh : c.toNat ≤ 57 := hdigit.2
    simp only [Unicode.Ranges.contains, Unicode.blank, List.any_cons, List.any_nil,
      Bool.or_eq_true, Bool.and_eq_true, decide_eq_true_eq, Bool.false_eq_true, or_false] at h
    omega

/-- Every blank of JSON is a blank. -/
theorem blank_of_isSpace (h : Json.isSpace c) : Unicode.blank.contains c := by
  simp only [Json.isSpace, Bool.or_eq_true, beq_iff_eq] at h
  rcases h with ((rfl | rfl) | rfl) | rfl <;> rfl

/-- No value starts with a blank that is none of JSON. -/
theorem readLeading?_eq_none {depth : Nat}
    (h : ∀ c others, Json.skipSpace text = c :: others → Unicode.blank.contains c) :
    Json.readLeading? depth text = none := by
  show Json.readValue? depth (2 * text.length + 1 + 1) text = none
  cases hskip : Json.skipSpace text with
  | nil =>
    rw [Json.readValue?, hskip]
  | cons c others =>
    have hblank := h c others hskip
    have hleaf : (c == '-' || c.isDigit) = false := by
      rw [isDigit_of_blank hblank, Bool.or_false]
      exact beq_false_of_ne (ne_of_blank hblank (by decide))
    rw [Json.readValue?_leaf hskip (ne_of_blank hblank (by decide)) (ne_of_blank hblank (by decide))
      (ne_of_blank hblank (by decide)), hleaf, if_neg Bool.false_ne_true]
    unfold Json.word?
    split
    · next heq => exact absurd (List.cons.inj heq).1 (ne_of_blank hblank (by decide))
    · next heq => exact absurd (List.cons.inj heq).1 (ne_of_blank hblank (by decide))
    · next heq => exact absurd (List.cons.inj heq).1 (ne_of_blank hblank (by decide))
    · rfl

/-- Behind its JSON blanks, a text whose start is blank goes on with a blank, unless all its
    start is JSON blanks. -/
theorem blank_of_skipSpace {lead rest others : List Char} (hblank : lead.all Unicode.blank.contains)
    (hspace : lead.all Json.isSpace = false) (h : Json.skipSpace (lead ++ rest) = c :: others) :
    Unicode.blank.contains c := by
  cases hskip : Json.skipSpace lead with
  | nil =>
    have hall := List.all_eq_true.2 (Json.skipSpace_eq_nil_iff.1 hskip)
    rw [hall] at hspace
    cases hspace
  | cons d behind =>
    rw [Json.skipSpace_extend hskip] at h
    have hsuffix : d :: behind <:+ lead := hskip ▸ List.dropWhile_suffix Json.isSpace
    have hmem : d ∈ lead := hsuffix.subset List.mem_cons_self
    rw [← (List.cons.inj h).1]
    exact List.all_eq_true.1 hblank d hmem

end

/-! ### Entries of lines -/

section
variable {store t : Store} {number : Nat} {line : List Char} {key : String} {packet : Json}

/-- An entry is an object with a text as `key` and with a `packet`. -/
theorem entryOfLine_eq_ok_iff : entryOfLine number line = .ok (key, packet) ↔
    ∃ members, Json.parse? (String.ofList line) = some (.object members) ∧
      lookupEntry "key" members = some (.string key) ∧ lookupEntry "packet" members = some packet := by
  unfold entryOfLine
  cases hread : Json.parse? (String.ofList line) with
  | none => simp
  | some value =>
    cases value with
    | object members =>
      have hmember : ∀ name, (Json.object members).member? name = lookupEntry name members :=
        fun _ => rfl
      simp only [hmember, Option.some.injEq, Json.object.injEq, exists_eq_left']
      cases lookupEntry "key" members with
      | none => simp
      | some found =>
        cases lookupEntry "packet" members with
        | none => cases found <;> simp [Json.string?]
        | some value => cases found <;> simp [Json.string?]
    | _ => simp [Json.member?]

/-- Lines that are read are blank, or there is a first one that is not, and it is an entry. -/
theorem exists_entry_of_ingestLines {lines : List (List Char)}
    (h : ingestLines store number lines = .ok t) :
    lines.all (·.all Unicode.blank.contains) ∨
    ∃ before line after members key, lines = before ++ line :: after ∧
      before.all (·.all Unicode.blank.contains) ∧ line.all Unicode.blank.contains = false ∧
      Json.parse? (String.ofList line) = some (.object members) ∧
      lookupEntry "key" members = some (.string key) ∧
      (lookupEntry "packet" members).isSome := by
  induction lines generalizing number with
  | nil => exact .inl rfl
  | cons line rest ih =>
    unfold ingestLines at h
    split at h
    · next hblank =>
      rcases ih h with hall | ⟨before, entry, after, members, key, rfl, hbefore, hentry⟩
      · exact .inl (by simp [hblank, hall])
      · exact .inr ⟨line :: before, entry, after, members, key, rfl, by simp [hblank, hbefore], hentry⟩
    · next hblank =>
      obtain ⟨⟨key, packet⟩, hentry, -⟩ := bind_eq_ok_iff.1 h
      obtain ⟨members, hread, hkey, hpacket⟩ := entryOfLine_eq_ok_iff.1 hentry
      exact .inr ⟨[], line, rest, members, key, rfl, rfl, by simpa using hblank, hread, hkey,
        by rw [hpacket]; rfl⟩

end

/-! ### Detection -/

section
variable {text : String} {members : List (String × Json)}

theorem isLines_eq_false (h : Json.readLeading? Json.nesting text.toList = none) :
    isLines text = false := by
  rw [isLines, h]

/-- An object at the front of a text is an entry of lines if something stands behind it, or if
    it has the members of an entry alone. -/
theorem isLines_of_object {rest : List Char}
    (h : Json.readLeading? Json.nesting text.toList = some (.object members, rest)) :
    isLines text = (!rest.all Json.isSpace || isEntry (.object members)) := by
  rw [isLines, h]
  simp only [isDelimited, Bool.not_true, Bool.false_and, Bool.false_eq_true, if_false]
  cases hall : rest.all Json.isSpace with
  | true =>
    rw [Json.skipSpace_eq_nil_iff.2 (List.all_eq_true.1 hall)]
    rfl
  | false =>
    have hrest : Json.skipSpace rest ≠ [] := fun hnil => by
      rw [List.all_eq_true.2 (Json.skipSpace_eq_nil_iff.1 hnil)] at hall
      cases hall
    simp [hrest]

/-- A line with an object, and JSON blanks before it, gives the value at the front of its
    text. -/
theorem exists_readLeading?_of_line {lead line : List Char}
    (hline : Json.parse? (String.ofList line) = some (.object members)) (hlead : lead.all Json.isSpace)
    (tail : List Char) :
    ∃ rest, Json.readLeading? Json.nesting (lead ++ (line ++ tail)) = some (.object members, rest) ∧
      rest.all Json.isSpace = tail.all Json.isSpace := by
  obtain ⟨behind, hread, hbehind⟩ := Json.parse?_ofList_eq_some_iff.1 hline
  refine ⟨behind ++ tail, ?_, ?_⟩
  · exact Json.readLeading?_within hread (fun _ => nofun) (List.all_eq_true.1 hlead) tail
  · rw [List.all_append, List.all_eq_true.2 (Json.skipSpace_eq_nil_iff.1 hbehind), Bool.true_and]

/-! ### Members of maps -/

/-- The members of an object are among those that it was made of. -/
theorem mem_of_lookupEntry_ofMembers {made : List (String × Json)} {name : String} {value : Json}
    (hmade : Json.ofMembers members = .object made) (h : lookupEntry name made = some value) :
    (name, value) ∈ members := by
  have hentries : ∀ m : OrderedMap String Json, (m.insertAll members).entries =
      members.foldl (fun known entry => insertEntry entry.1 entry.2 known) m.entries :=
    fun m => (List.foldl_hom OrderedMap.entries fun _ _ => rfl).symm
  have hmap : (OrderedMap.ofList members).entries = made :=
    (hentries .empty).trans (Json.object.inj hmade)
  rcases OrderedMap.mem_of_mem_insertAll (hmap ▸ mem_of_lookupEntry h) with hnone | hmem
  · cases hnone
  · exact hmem

/-- An object without texts among its members is no entry. -/
theorem isEntry_ofMembers (h : ∀ entry ∈ members, ∀ s, entry.2 ≠ .string s) :
    isEntry (Json.ofMembers members) = false := by
  have hkey : ∀ made, Json.ofMembers members = .object made →
      ((lookupEntry "key" made).bind Json.string?).isSome = false := by
    intro made hmade
    cases hlookup : lookupEntry "key" made with
    | none => rfl
    | some value =>
      have hvalue := h _ (mem_of_lookupEntry_ofMembers hmade hlookup)
      cases value with
      | string s => exact absurd rfl (hvalue s)
      | _ => rfl
  rw [Json.ofMembers, isEntry, hkey _ rfl]
  simp

/-- A map without texts among its members is taken for a map. -/
theorem isLines_of_parseMembers? (h : Json.parseMembers? text = some members)
    (hmembers : ∀ entry ∈ members, ∀ s, entry.2 ≠ .string s) : isLines text = false := by
  obtain ⟨rest, hread, hrest⟩ := Json.readLeading?_of_parseMembers? h
  rw [isLines_of_object hread, List.all_eq_true.2 (Json.skipSpace_eq_nil_iff.1 hrest)]
  exact isEntry_ofMembers hmembers

/-- Members that are stored are packets. -/
theorem packets_of_ingestAll {store t : Store} (h : ingestAll store members = .ok t) :
    ∀ entry ∈ members, ∃ record, Record.ofPacket entry.2 = .ok record := by
  induction members generalizing store with
  | nil => exact fun _ hmem => nomatch hmem
  | cons entry rest ih =>
    obtain ⟨next, hnext, hrest⟩ := bind_eq_ok_iff.1 h
    have hentry : ∃ record, Record.ofPacket entry.2 = .ok record := by
      cases hrecord : Record.ofPacket entry.2 with
      | ok record => exact ⟨record, rfl⟩
      | error fault =>
        simp only [ingest, Store.ingest, hrecord] at hnext
        cases hnext
    exact List.forall_mem_cons.2 ⟨hentry, ih hrest⟩

/-- No packet is a text. -/
theorem ne_string_of_ofPacket {value : Json} {record : Record} (h : Record.ofPacket value = .ok record)
    (s : String) : value ≠ .string s := by
  rintro rfl
  cases h

/-- A map that is read has no text among its members. -/
theorem exists_parseMembers?_of_readMap {mode : InsertMode} {store : Store}
    (h : readMap mode text = .ok store) : ∃ members, Json.parseMembers? text = some members ∧
      ∀ entry ∈ members, ∀ s, entry.2 ≠ .string s := by
  unfold readMap at h
  split at h
  · cases h
  · next members hread =>
    refine ⟨members, hread, fun entry hmem => ?_⟩
    obtain ⟨record, hrecord⟩ := packets_of_ingestAll h entry hmem
    exact ne_string_of_ofPacket hrecord

/-! ### The front of lines -/

/-- Says that a line is an object with two members. -/
def IsBare (line : List Char) : Prop :=
  ∃ members, Json.parse? (String.ofList line) = some (.object members) ∧ members.length = 2

/-- Says that lines show that they are lines: what stands before the first entry are blanks to
    JSON too, and the entry has no further members, or else something that is no blank to JSON
    stands behind it. -/
def ShowsLines (lines : List (List Char)) : Prop :=
  ∃ line after, lines.dropWhile (·.all Json.isSpace) = line :: after ∧
    line.all Unicode.blank.contains = false ∧
    (IsBare line ∨ after.all (·.all Json.isSpace) = false)

theorem all_blank_of_all_isSpace {line : List Char} (h : line.all Json.isSpace) :
    line.all Unicode.blank.contains :=
  List.all_eq_true.2 fun c hc => blank_of_isSpace (List.all_eq_true.1 h c hc)

/-- Lines show it, if their first entry comes behind JSON blanks, by the members of the entry or
    by what is behind it. -/
theorem showsLines_iff {before after : List (List Char)} {line : List Char}
    (hbefore : before.all (·.all Json.isSpace)) (hline : line.all Unicode.blank.contains = false)
    (hread : Json.parse? (String.ofList line) = some (.object members)) :
    ShowsLines (before ++ line :: after) ↔
      after.all (·.all Json.isSpace) = false ∨ members.length = 2 := by
  have hspace : ¬ line.all Json.isSpace := fun h => by
    rw [all_blank_of_all_isSpace h] at hline
    cases hline
  have hdrop : (before ++ line :: after).dropWhile (·.all Json.isSpace) = line :: after := by
    rw [List.dropWhile_append_of_pos (List.all_eq_true.1 hbefore)]
    exact List.dropWhile_cons_of_neg hspace
  have hbare : IsBare line ↔ members.length = 2 := by
    constructor
    · rintro ⟨found, hfound, hlength⟩
      cases hread.symm.trans hfound
      exact hlength
    · exact fun hlength => ⟨members, hread, hlength⟩
  rw [or_comm, ← hbare]
  constructor
  · rintro ⟨first, rest, hfirst, -, hshown⟩
    cases hdrop.symm.trans hfirst
    exact hshown
  · exact fun hshown => ⟨line, after, hdrop, hline, hshown⟩

/-- Lines that go on, behind JSON blanks, with a line of other blanks do not show it, nor do
    blank lines alone. -/
theorem not_showsLines {before rest : List (List Char)}
    (hblank : before.all (·.all Unicode.blank.contains))
    (hspace : before.all (·.all Json.isSpace) = false ∨ rest = []) :
    ¬ ShowsLines (before ++ rest) := by
  rintro ⟨line, after, hdrop, hline, -⟩
  -- the line that would show it is one of the blank ones
  have hmem : line ∈ before := by
    cases hbefore : before.dropWhile (·.all Json.isSpace) with
    | nil =>
      have hall : before.all (·.all Json.isSpace) := by
        have hsplit := @List.takeWhile_append_dropWhile _ (·.all Json.isSpace) before
        rw [hbefore, List.append_nil] at hsplit
        exact hsplit ▸ List.all_takeWhile
      rcases hspace with hspace | rfl
      · rw [hall] at hspace
        cases hspace
      · rw [List.append_nil, hbefore] at hdrop
        cases hdrop
    | cons first others =>
      have hne : before.dropWhile (·.all Json.isSpace) ≠ [] := by rw [hbefore]; nofun
      rw [(Number.takeWhile_dropWhile_extend hne rest).2, hbefore] at hdrop
      have hsuffix : first :: others <:+ before := hbefore ▸ List.dropWhile_suffix _
      rw [← (List.cons.inj hdrop).1]
      exact hsuffix.subset List.mem_cons_self
  rw [List.all_eq_true.1 hblank line hmem] at hline
  cases hline

/-- A text that is read as lines has no value at its front, or an entry. -/
theorem front_of_readLines {mode : InsertMode} {store : Store} (h : readLines mode text = .ok store) :
    (Json.readLeading? Json.nesting text.toList = none ∧ ¬ ShowsLines (splitLines [] text.toList)) ∨
    ∃ members rest key, Json.readLeading? Json.nesting text.toList = some (.object members, rest) ∧
      lookupEntry "key" members = some (.string key) ∧ (lookupEntry "packet" members).isSome ∧
      (ShowsLines (splitLines [] text.toList) ↔
        rest.all Json.isSpace = false ∨ members.length = 2) := by
  have hlined : Lined text.toList (splitLines [] text.toList) := lined_splitLines [] text.toList
  rcases exists_entry_of_ingestLines h with
    hall | ⟨before, line, after, members, key, hlines, hbefore, hline, hread, hkey, hpacket⟩
  · -- blanks alone: no value starts with one
    have htext : text.toList.all Unicode.blank.contains := by
      rw [hlined.all_eq (by decide) (by decide)]
      exact hall
    refine .inl ⟨readLeading?_eq_none fun c others hskip => ?_, ?_⟩
    · have hsuffix : c :: others <:+ text.toList := hskip ▸ List.dropWhile_suffix Json.isSpace
      exact List.all_eq_true.1 htext c (hsuffix.subset List.mem_cons_self)
    · rw [← List.append_nil (splitLines [] text.toList)]
      exact not_showsLines hall (.inr rfl)
  · rw [hlines] at hlined ⊢
    obtain ⟨lead, tail, htext, hsplit⟩ := hlined.exists_split
    rw [htext]
    have hlead : lead.all Unicode.blank.contains := by
      rw [(hsplit _ (by decide) (by decide)).1]
      exact hbefore
    obtain ⟨hspace, hafter⟩ := hsplit Json.isSpace (by decide) (by decide)
    -- JSON sees the entry at the front unless it stops at a blank before it
    cases hbeforeSpace : before.all (·.all Json.isSpace) with
    | true =>
      obtain ⟨rest, hfront, hrest⟩ :=
        exists_readLeading?_of_line hread (hspace.trans hbeforeSpace) tail
      refine .inr ⟨members, rest, key, hfront, hkey, hpacket, ?_⟩
      rw [showsLines_iff hbeforeSpace hline hread, hrest, hafter]
    | false =>
      refine .inl ⟨readLeading?_eq_none fun c others hskip => ?_,
        not_showsLines hbefore (.inl hbeforeSpace)⟩
      exact blank_of_skipSpace hlead (hspace.trans hbeforeSpace) hskip

/-- No text is read in both layouts. -/
theorem not_readLines_of_readMap {mode other : InsertMode} {store : Store}
    (h : readMap mode text = .ok store) (t : Store) : readLines other text ≠ .ok t := by
  intro hlines
  obtain ⟨members, hmembers, htexts⟩ := exists_parseMembers?_of_readMap h
  obtain ⟨blanks, hfront, -⟩ := Json.readLeading?_of_parseMembers? hmembers
  rcases front_of_readLines hlines with ⟨hnone, -⟩ | ⟨found, rest, key, hfound, hkey, -⟩
  · rw [hfront] at hnone
    cases hnone
  · -- the key of the entry would be a member of the map, and a text
    have hmade : Json.ofMembers members = .object found :=
      (Prod.mk.inj (Option.some.inj (hfront.symm.trans hfound))).1
    exact htexts _ (mem_of_lookupEntry_ofMembers hmade hkey) key rfl

/-! ### Both layouts -/

/-- What gives the keys of a store gives the store. -/
theorem exists_of_keys {result : Except FixtureFault Store} {keys : List String}
    (h : result.toOption.map Store.keys = some keys) :
    ∃ store, result = .ok store ∧ store.keys = keys := by
  obtain ⟨store, hstore, hkeys⟩ := Option.map_eq_some_iff.1 h
  cases result with
  | error => cases hstore
  | ok found =>
    cases hstore
    exact ⟨store, rfl, hkeys⟩

/-- What is read as a map is taken for a map, and it is read as lines in no mode. -/
theorem read_of_readMap {mode : InsertMode} {store : Store} (h : readMap mode text = .ok store) :
    read mode text = .ok store ∧ ∀ other, ∃ fault, readLines other text = .error fault := by
  obtain ⟨members, hmembers, htexts⟩ := exists_parseMembers?_of_readMap h
  refine ⟨?_, fun other => ?_⟩
  · rw [read, isLines_of_parseMembers? hmembers htexts, if_neg Bool.false_ne_true, h]
  · cases hlines : readLines other text with
    | error fault => exact ⟨fault, rfl⟩
    | ok t => exact absurd hlines (not_readLines_of_readMap h t)

/-- A map on three lines that has the members of an entry, one of them twice. -/
def entryLike : String :=
  "\x7b\"key\":\x7b\"level\":\"log\",\"arguments\":[]\x7d,\n" ++
  "\"packet\":\x7b\"level\":\"warn\",\"arguments\":[]\x7d,\n" ++
  "\"key\":\x7b\"level\":\"info\",\"arguments\":[]\x7d\x7d"

theorem entryLike_read : ∃ store, readMap .overwrite entryLike = .ok store ∧
    store.keys = ["key", "packet"] ∧ read .overwrite entryLike = .ok store ∧
    ∀ other, ∃ fault, readLines other entryLike = .error fault := by
  obtain ⟨store, hstore, hkeys⟩ : ∃ store, readMap .overwrite entryLike = .ok store ∧
      store.keys = ["key", "packet"] := exists_of_keys (by decide +kernel)
  obtain ⟨hread, hlines⟩ := read_of_readMap hstore
  exact ⟨store, hstore, hkeys, hread, hlines⟩

/-- What is read as lines is taken for lines exactly if its lines show it. -/
theorem isLines_iff_showsLines {mode : InsertMode} {store : Store}
    (h : readLines mode text = .ok store) :
    isLines text = true ↔ ShowsLines (splitLines [] text.toList) := by
  rcases front_of_readLines h with ⟨hnone, hhidden⟩ | ⟨members, rest, key, hfront, hkey, hpacket, hshown⟩
  · rw [isLines_eq_false hnone]
    exact iff_of_false Bool.false_ne_true hhidden
  · rw [isLines_of_object hfront, hshown]
    simp [isEntry, hkey, hpacket]

/-- The first line that was written shows that it is one, if it is read. -/
theorem showsLines_written {mode : InsertMode} {store : Store} (written : Store)
    (h : readLines mode (writeLines written) = .ok store) :
    ShowsLines (splitLines [] (writeLines written).toList) ↔ written.entries ≠ [] := by
  rw [readLines, writeLines_eq] at h
  rw [writeLines_eq]
  rw [splitLines_linesText] at h ⊢
  cases hentries : written.entries with
  | nil =>
    have hnone : ¬ ShowsLines ([] ++ []) := not_showsLines rfl (.inr rfl)
    exact iff_of_false hnone (by simp)
  | cons entry rest =>
    refine iff_of_true ?_ (by simp)
    rw [hentries, List.map_cons, List.map_cons] at h
    rw [List.map_cons, List.map_cons]
    generalize (entry.1, entry.2.toPacket) = first at h ⊢
    rw [ingestLines, not_blank_lineOf first, if_neg Bool.false_ne_true] at h
    obtain ⟨⟨key, packet⟩, hentry, -⟩ := bind_eq_ok_iff.1 h
    obtain ⟨members, hread, -⟩ := entryOfLine_eq_ok_iff.1 hentry
    -- the packet may have been read as another one, but it is still the second of two members
    have hlength : members.length = 2 := by
      have hmade := hread
      rw [parse?_lineOf] at hmade
      obtain ⟨again, -, hmembers⟩ := Option.map_eq_some_iff.1 hmade
      rw [← Json.object.inj hmembers]
      rfl
    have hbefore : ([] : List (List Char)).all (·.all Json.isSpace) := rfl
    exact (showsLines_iff hbefore (not_blank_lineOf first) hread).2 (.inr hlength)

/-- What is read as lines is read as it is if its lines show that they are lines, and is refused
    otherwise. The lines that were written of a store show it unless the store is empty. -/
theorem read_of_readLines {mode : InsertMode} {store : Store} (h : readLines mode text = .ok store) :
    (ShowsLines (splitLines [] text.toList) → read mode text = .ok store) ∧
    (¬ ShowsLines (splitLines [] text.toList) → ∃ fault, read mode text = .error fault) ∧
    ∀ written : Store, text = writeLines written →
      (read mode text = .ok store ↔ written.entries ≠ []) := by
  have hlayout := isLines_iff_showsLines h
  have hshown : ShowsLines (splitLines [] text.toList) → read mode text = .ok store := by
    intro hshown
    rw [read, if_pos (hlayout.2 hshown), h]
  have hhidden : ¬ ShowsLines (splitLines [] text.toList) → ∃ fault, read mode text = .error fault := by
    intro hhidden
    rw [read, if_neg fun hlines => hhidden (hlayout.1 hlines)]
    cases hmap : readMap mode text with
    | error fault => exact ⟨fault, rfl⟩
    | ok t => exact absurd h (not_readLines_of_readMap hmap store)
  refine ⟨hshown, hhidden, ?_⟩
  rintro written rfl
  rw [← showsLines_written written h]
  refine ⟨fun hread => ?_, hshown⟩
  by_contra hnot
  obtain ⟨fault, hfault⟩ := hhidden hnot
  rw [hread] at hfault
  cases hfault

/-- An entry behind a line that is blank, though not to JSON. -/
def behindBlank : String :=
  "\u00a0\n\x7b\"key\":\"k\",\"packet\":\x7b\"level\":\"log\",\"arguments\":[]\x7d\x7d\n"

theorem behindBlank_refused :
    (∃ store, readLines .strict behindBlank = .ok store ∧ store.keys = ["k"]) ∧
    ∃ fault, read .strict behindBlank = .error fault := by
  obtain ⟨store, hstore, hkeys⟩ : ∃ store, readLines .strict behindBlank = .ok store ∧
      store.keys = ["k"] := exists_of_keys (by decide +kernel)
  have hhidden : ¬ ShowsLines (splitLines [] behindBlank.toList) := by
    obtain ⟨rest, hlines⟩ : ∃ rest, splitLines [] behindBlank.toList = [['\u00a0']] ++ rest :=
      ⟨(splitLines [] behindBlank.toList).tail, by decide +kernel⟩
    rw [hlines]
    exact not_showsLines (by decide) (.inl (by decide))
  exact ⟨⟨store, hstore, hkeys⟩, (read_of_readLines hstore).2.1 hhidden⟩

end

end Fixture

end Console
