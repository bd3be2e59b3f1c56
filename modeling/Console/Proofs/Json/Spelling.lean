import Console.Proofs.Json.Leaves

/-! # Reading what was printed

    Compact and indented text differ in their blanks only: both are spellings of a value
    (`spell`), with the blanks that a `Spacing` puts between its parts. How a spelling reads
    does not depend on its blanks, nor on where it stands:

    - `reread`: what a value reads back as, which is the value itself if its numbers read
      back, no name of an object occurs twice and it is not nested too deep,
    - `readValue?_spell`: the value at the front of a text, by induction on the value,
    - `parseWithin?_compact`, `readLeading?_spell`, `parseMembers?_spell`: whole texts.
-/

namespace Console

namespace Json

/-! ### Spellings -/

/-- The blanks of a text: before the items and the closing bracket of a container, by the
    level they stand at, and after the colon of a member. -/
structure Spacing where
  newline : Nat → List Char
  gap : List Char
  /-- There is nothing else. -/
  newline_blank : ∀ level, ∀ c ∈ newline level, isSpace c
  gap_blank : ∀ c ∈ gap, isSpace c

mutual

/-- The text of a value that stands at the given level. -/
def spell (s : Spacing) (level : Nat) : Json → List Char
  | .null => "null".toList
  | .bool value => if value then "true".toList else "false".toList
  | .number value => value.text.toList
  | .string value => (stringText value).toList
  | .array [] => ['[', ']']
  | .array items => '[' :: (spellItems s (level + 1) items ++ (s.newline level ++ [']']))
  | .object [] => ['\x7b', '\x7d']
  | .object members =>
    '\x7b' :: (spellMembers s (level + 1) members ++ (s.newline level ++ ['\x7d']))

/-- The text of items between commas. -/
def spellItems (s : Spacing) (level : Nat) : List Json → List Char
  | [] => []
  | [item] => s.newline level ++ spell s level item
  | item :: rest => s.newline level ++ (spell s level item ++ ',' :: spellItems s level rest)

/-- The text of members between commas. -/
def spellMembers (s : Spacing) (level : Nat) : List (String × Json) → List Char
  | [] => []
  | [(name, value)] =>
    s.newline level ++ ((stringText name).toList ++ ':' :: (s.gap ++ spell s level value))
  | (name, value) :: rest =>
    s.newline level ++ ((stringText name).toList ++
      ':' :: (s.gap ++ (spell s level value ++ ',' :: spellMembers s level rest)))

end

/-! ### Both printers spell -/

/-- No blanks. -/
def dense : Spacing where
  newline _ := []
  gap := []
  newline_blank := by simp
  gap_blank := by simp

@[simp] theorem newline_dense (level : Nat) : dense.newline level = [] := rfl

@[simp] theorem gap_dense : dense.gap = [] := rfl

mutual

theorem toList_compact (level : Nat) : ∀ value : Json, value.compact.toList = spell dense level value
  | .null | .number _ | .string _ => rfl
  | .bool value => by cases value <;> rfl
  | .array [] | .object [] => by simp [compact, compactItems, compactMembers, spell]
  | .array (item :: rest) => by
    have hitems := toList_compactItems (level + 1) (item :: rest)
    simp [compact, spell, hitems]
  | .object (member :: rest) => by
    have hmembers := toList_compactMembers (level + 1) (member :: rest)
    simp [compact, spell, hmembers]

theorem toList_compactItems (level : Nat) :
    ∀ items : List Json, (compactItems items).toList = spellItems dense level items
  | [] => rfl
  | [item] => by
    have hitem := toList_compact level item
    simp [compactItems, spellItems, hitem]
  | item :: next :: rest => by
    have hitem := toList_compact level item
    have hrest := toList_compactItems level (next :: rest)
    simp [compactItems, spellItems, hitem, hrest]

theorem toList_compactMembers (level : Nat) : ∀ members : List (String × Json),
    (compactMembers members).toList = spellMembers dense level members
  | [] => rfl
  | [(name, value)] => by
    have hvalue := toList_compact level value
    simp [compactMembers, spellMembers, hvalue]
  | (name, value) :: next :: rest => by
    have hvalue := toList_compact level value
    have hrest := toList_compactMembers level (next :: rest)
    simp [compactMembers, spellMembers, hvalue, hrest]

end

theorem toList_lineBreak (level : Nat) :
    (lineBreak level).toList = '\n' :: List.replicate (2 * level) ' ' := by
  simp [lineBreak, Number.toList_pushn]

/-- One item a line. -/
def indented : Spacing where
  newline level := (lineBreak level).toList
  gap := [' ']
  newline_blank := by
    intro level c hc
    rw [toList_lineBreak] at hc
    rcases List.mem_cons.1 hc with rfl | hc
    · rfl
    · rw [List.eq_of_mem_replicate hc]
      rfl
  gap_blank := by simp [isSpace]

@[simp] theorem newline_indented (level : Nat) : indented.newline level = (lineBreak level).toList := rfl

@[simp] theorem gap_indented : indented.gap = [' '] := rfl

mutual

theorem toList_prettyAt (level : Nat) :
    ∀ value : Json, (value.prettyAt level).toList = spell indented level value
  | .null | .number _ | .string _ => rfl
  | .bool value => by cases value <;> rfl
  | .array [] | .object [] => by simp [prettyAt, spell]
  | .array (item :: rest) => by
    have hitems := toList_prettyItems (level + 1) (item :: rest)
    simp [prettyAt, spell, hitems]
  | .object (member :: rest) => by
    have hmembers := toList_prettyMembers (level + 1) (member :: rest)
    simp [prettyAt, spell, hmembers]

theorem toList_prettyItems (level : Nat) :
    ∀ items : List Json, (prettyItems level items).toList = spellItems indented level items
  | [] => rfl
  | [item] => by
    have hitem := toList_prettyAt level item
    simp [prettyItems, spellItems, hitem]
  | item :: next :: rest => by
    have hitem := toList_prettyAt level item
    have hrest := toList_prettyItems level (next :: rest)
    simp [prettyItems, spellItems, hitem, hrest]

theorem toList_prettyMembers (level : Nat) : ∀ members : List (String × Json),
    (prettyMembers level members).toList = spellMembers indented level members
  | [] => rfl
  | [(name, value)] => by
    have hvalue := toList_prettyAt level value
    simp [prettyMembers, spellMembers, hvalue]
  | (name, value) :: next :: rest => by
    have hvalue := toList_prettyAt level value
    have hrest := toList_prettyMembers level (next :: rest)
    simp [prettyMembers, spellMembers, hvalue, hrest]

end

/-! ### Values read back -/

mutual

/-- What the text of a value reads back as. -/
def reread (depth : Nat) : Json → Option Json
  | .null => some .null
  | .bool value => some (.bool value)
  | .number value => (Number.read? value.text.toList).map fun read => .number read.1
  | .string value => some (.string value)
  | .array items =>
    match depth with
    | 0 => none
    | depth + 1 => (rereadItems depth items).map .array
  | .object members =>
    match depth with
    | 0 => none
    | depth + 1 => (rereadMembers depth members).map ofMembers

/-- What the text of items reads back as. -/
def rereadItems (depth : Nat) : List Json → Option (List Json)
  | [] => some []
  | item :: rest =>
    match reread depth item with
    | none => none
    | some item => (rereadItems depth rest).map (item :: ·)

/-- What the text of members reads back as. -/
def rereadMembers (depth : Nat) : List (String × Json) → Option (List (String × Json))
  | [] => some []
  | (name, value) :: rest =>
    match reread depth value with
    | none => none
    | some value => (rereadMembers depth rest).map ((name, value) :: ·)

end

/-! ### Blanks -/

section
variable {blanks text : List Char}

theorem skipSpace_append (h : ∀ c ∈ blanks, isSpace c) : skipSpace (blanks ++ text) = skipSpace text :=
  List.dropWhile_append_of_pos h

theorem skipSpace_cons {c : Char} (h : isSpace c = false) : skipSpace (c :: text) = c :: text :=
  List.dropWhile_cons_of_neg (by simp [h])

theorem skipSpace_skipSpace (text : List Char) : skipSpace (skipSpace text) = skipSpace text := by
  induction text with
  | nil => rfl
  | cons c rest ih =>
    cases hc : isSpace c with
    | false => rw [skipSpace_cons hc, skipSpace_cons hc]
    | true =>
      have hskip : skipSpace (c :: rest) = skipSpace rest := List.dropWhile_cons_of_pos hc
      rw [hskip, ih]

theorem readValue?_skipSpace (depth fuel : Nat) (text : List Char) :
    readValue? depth fuel (skipSpace text) = readValue? depth fuel text := by
  cases fuel with
  | zero => simp only [readValue?]
  | succ fuel => simp only [readValue?, skipSpace_skipSpace]

theorem readItems?_skipSpace (depth fuel : Nat) (text : List Char) :
    readItems? depth fuel (skipSpace text) = readItems? depth fuel text := by
  cases fuel with
  | zero => simp only [readItems?]
  | succ fuel => simp only [readItems?, readValue?_skipSpace]

theorem readMembers?_skipSpace (depth fuel : Nat) (text : List Char) :
    readMembers? depth fuel (skipSpace text) = readMembers? depth fuel text := by
  cases fuel with
  | zero => simp only [readMembers?]
  | succ fuel => simp only [readMembers?, skipSpace_skipSpace]

/-- Leading blanks make no difference to a value. -/
theorem readValue?_append {depth fuel : Nat} (h : ∀ c ∈ blanks, isSpace c) :
    readValue? depth fuel (blanks ++ text) = readValue? depth fuel text := by
  rw [← readValue?_skipSpace, skipSpace_append h, readValue?_skipSpace]

/-- Blanks stop a numeral, if what comes after them does. -/
theorem stops_append (h : ∀ c ∈ blanks, isSpace c) (htext : Number.Stops text) :
    Number.Stops (blanks ++ text) := by
  cases blanks with
  | nil => exact htext
  | cons c blanks =>
    intro d hd
    cases hd
    have hc := h c List.mem_cons_self
    simp only [isSpace, Bool.or_eq_true, beq_iff_eq] at hc
    rcases hc with ((rfl | rfl) | rfl) | rfl <;> decide

end

theorem stops_cons {c : Char} (h : c = ',' ∨ c = ']' ∨ c = '\x7d') (rest : List Char) :
    Number.Stops (c :: rest) := by
  intro d hd
  cases hd
  rcases h with rfl | rfl | rfl <;> decide

/-- A value begins with a character that is no blank and closes nothing. -/
theorem exists_spell (s : Spacing) (level : Nat) (value : Json) : ∃ c rest,
    spell s level value = c :: rest ∧ isSpace c = false ∧ c ≠ ']' := by
  cases value with
  | null => exact ⟨'n', _, rfl, rfl, by decide⟩
  | bool value =>
    cases value with
    | false => exact ⟨'f', _, rfl, rfl, by decide⟩
    | true => exact ⟨'t', _, rfl, rfl, by decide⟩
  | number value =>
    obtain ⟨c, rest, htext, hc⟩ := value.numeral_text.exists_cons
    refine ⟨c, rest, htext, ?_⟩
    rcases hc with rfl | hc
    · decide
    · constructor
      · cases hspace : isSpace c with
        | false => rfl
        | true =>
          simp only [isSpace, Bool.or_eq_true, beq_iff_eq] at hspace
          rcases hspace with ((rfl | rfl) | rfl) | rfl <;> exact absurd hc (by decide)
      · rintro rfl
        exact absurd hc (by decide)
  | string value => exact ⟨'"', _, toList_stringText value, rfl, by decide⟩
  | array items => cases items <;> exact ⟨'[', _, rfl, rfl, by decide⟩
  | object members => cases members <;> exact ⟨'\x7b', _, rfl, rfl, by decide⟩

/-! ### Leaves and containers -/

variable {depth fuel : Nat} {rest : List Char}

theorem readValue?_number (value : Number) (hrest : Number.Stops rest) :
    readValue? depth (fuel + 1) (value.text.toList ++ rest) =
      (reread depth (.number value)).map (·, rest) := by
  obtain ⟨c, others, htext, hc⟩ := value.numeral_text.exists_cons
  have hread := value.numeral_text.read?_append hrest
  obtain ⟨c', others', hspell, hspace, -⟩ := exists_spell dense 0 (.number value)
  obtain ⟨rfl, rfl⟩ := List.cons.inj (htext.symm.trans hspell)
  rw [htext] at hread
  rw [reread, htext, List.cons_append, readValue?, skipSpace_cons hspace]
  -- a hyphen or a digit opens neither a string nor a container
  split
  · next heq => cases heq; exact absurd hc (by decide)
  · next heq => cases heq; exact absurd hc (by decide)
  · next heq => cases heq; exact absurd hc (by decide)
  · next heq =>
    cases heq
    rw [if_pos (by simpa using hc), ← List.cons_append, hread]
    cases Number.read? (c :: others) <;> rfl
  · next heq => cases heq

theorem readValue?_string (value : String) :
    readValue? depth (fuel + 1) ((stringText value).toList ++ rest) =
      (reread depth (.string value)).map (·, rest) := by
  obtain ⟨body, htext, hbody⟩ := stringBody?_stringText value
  rw [htext, List.cons_append, readValue?, skipSpace_cons (by rfl)]
  simp only [hbody, reread, Option.map_some]

/-- An array is read through its items, if there are any. -/
theorem readValue?_array {text : List Char} (h : ∀ rest, skipSpace text ≠ ']' :: rest) :
    readValue? (depth + 1) (fuel + 1) ('[' :: text) =
      (readItems? depth fuel text).map fun (items, rest) => (.array items, rest) := by
  rw [readValue?, skipSpace_cons (by rfl)]
  simp only [readItems?_skipSpace]

/-- An object is read through its members, if there are any. -/
theorem readValue?_object {text : List Char} (h : ∀ rest, skipSpace text ≠ '\x7d' :: rest) :
    readValue? (depth + 1) (fuel + 1) ('\x7b' :: text) =
      (readMembers? depth fuel text).map fun (members, rest) => (ofMembers members, rest) := by
  rw [readValue?, skipSpace_cons (by rfl)]
  simp only [readMembers?_skipSpace]

/-- The name of a member is read with its colon. -/
theorem readMembers?_name {blanks text : List Char} (hblanks : ∀ c ∈ blanks, isSpace c)
    (name : String) :
    readMembers? depth (fuel + 1) (blanks ++ ((stringText name).toList ++ ':' :: text)) =
      match readValue? depth fuel text with
      | none => none
      | some (value, rest) =>
        match skipSpace rest with
        | ',' :: rest =>
          (readMembers? depth fuel rest).map fun (members, rest) => ((name, value) :: members, rest)
        | '\x7d' :: rest => some ([(name, value)], rest)
        | _ => none := by
  obtain ⟨body, htext, hbody⟩ := stringBody?_stringText name
  rw [htext, List.cons_append, readMembers?, skipSpace_append hblanks, skipSpace_cons (by rfl)]
  simp only [hbody]
  rw [skipSpace_cons (by rfl)]
  rfl

/-! ### Reading spellings -/

/-- Items begin with the blanks before the first one, which does not close them. -/
theorem exists_spellItems (s : Spacing) (level : Nat) (item : Json) (items : List Json) :
    ∃ c body, spellItems s level (item :: items) = s.newline level ++ c :: body ∧
      isSpace c = false ∧ c ≠ ']' := by
  obtain ⟨c, others, hitem, hspace, hc⟩ := exists_spell s level item
  cases items with
  | nil => exact ⟨c, others, by rw [spellItems, hitem], hspace, hc⟩
  | cons => exact ⟨c, _, by rw [spellItems, hitem, List.cons_append]; nofun, hspace, hc⟩

theorem skipSpace_spellItems (s : Spacing) (level : Nat) (item : Json) (items : List Json)
    (text rest : List Char) :
    skipSpace (spellItems s level (item :: items) ++ text) ≠ ']' :: rest := by
  obtain ⟨c, body, htext, hspace, hc⟩ := exists_spellItems s level item items
  rw [htext, List.append_assoc, skipSpace_append (s.newline_blank level), List.cons_append,
    skipSpace_cons hspace]
  intro h
  exact hc (List.cons.inj h).1

/-- Members begin with the blanks before the first one and the quote of its name. -/
theorem exists_spellMembers (s : Spacing) (level : Nat) (member : String × Json)
    (members : List (String × Json)) :
    ∃ body, spellMembers s level (member :: members) = s.newline level ++ '"' :: body := by
  obtain ⟨name, value⟩ := member
  cases members with
  | nil => exact ⟨_, by rw [spellMembers, toList_stringText, List.cons_append]⟩
  | cons => exact ⟨_, by rw [spellMembers, toList_stringText, List.cons_append]; nofun⟩

theorem skipSpace_spellMembers (s : Spacing) (level : Nat) (member : String × Json)
    (members : List (String × Json)) (text rest : List Char) :
    skipSpace (spellMembers s level (member :: members) ++ text) ≠ '\x7d' :: rest := by
  obtain ⟨body, htext⟩ := exists_spellMembers s level member members
  rw [htext, List.append_assoc, skipSpace_append (s.newline_blank level), List.cons_append,
    skipSpace_cons (by rfl)]
  intro h
  exact absurd (List.cons.inj h).1 (by decide)

mutual

/-- A spelling at the front of a text is read to its end, if what follows does not go on
    with it. Twice its length is fuel enough. -/
theorem readValue?_spell (s : Spacing) : ∀ (value : Json) (level depth fuel : Nat)
    (rest : List Char), Number.Stops rest → 2 * (spell s level value).length ≤ fuel + 1 →
    readValue? depth fuel (spell s level value ++ rest) = (reread depth value).map (·, rest)
  | value, level, depth, 0, rest, hrest, hfuel => by
    obtain ⟨c, others, htext, -⟩ := exists_spell s level value
    rw [htext, List.length_cons] at hfuel
    omega
  | .null, level, depth, fuel + 1, rest, hrest, hfuel => rfl
  | .bool value, level, depth, fuel + 1, rest, hrest, hfuel => by cases value <;> rfl
  | .number value, level, depth, fuel + 1, rest, hrest, hfuel => by
    rw [spell]
    exact readValue?_number value hrest
  | .string value, level, depth, fuel + 1, rest, hrest, hfuel => by
    rw [spell]
    exact readValue?_string value
  | .array [], level, depth, fuel + 1, rest, hrest, hfuel => by cases depth <;> rfl
  | .array (item :: items), level, 0, fuel + 1, rest, hrest, hfuel => rfl
  | .array (item :: items), level, depth + 1, fuel + 1, rest, hrest, hfuel => by
    have hlength : 2 * (spellItems s (level + 1) (item :: items)).length ≤ fuel := by
      simp only [spell, List.length_cons, List.length_append] at hfuel
      omega
    have hitems := readItems?_spell s (item :: items) (by simp) (level + 1) depth fuel
      (s.newline level) rest (s.newline_blank level) hlength
    have htext : spell s level (.array (item :: items)) ++ rest =
        '[' :: (spellItems s (level + 1) (item :: items) ++ (s.newline level ++ ']' :: rest)) := by
      simp [spell]
    rw [htext, readValue?_array (skipSpace_spellItems s _ item items _), hitems, reread]
    cases rereadItems depth (item :: items) <;> rfl
  | .object [], level, depth, fuel + 1, rest, hrest, hfuel => by cases depth <;> rfl
  | .object (member :: members), level, 0, fuel + 1, rest, hrest, hfuel => rfl
  | .object (member :: members), level, depth + 1, fuel + 1, rest, hrest, hfuel => by
    have hlength : 2 * (spellMembers s (level + 1) (member :: members)).length ≤ fuel := by
      simp only [spell, List.length_cons, List.length_append] at hfuel
      omega
    have hmembers := readMembers?_spell s (member :: members) (by simp) (level + 1) depth fuel
      (s.newline level) rest (s.newline_blank level) (by omega)
    have htext : spell s level (.object (member :: members)) ++ rest =
        '\x7b' :: (spellMembers s (level + 1) (member :: members) ++
          (s.newline level ++ '\x7d' :: rest)) := by
      simp [spell]
    rw [htext, readValue?_object (skipSpace_spellMembers s _ member members _), hmembers, reread]
    cases rereadMembers depth (member :: members) <;> rfl

/-- Items are read up to the bracket that closes them. -/
theorem readItems?_spell (s : Spacing) : ∀ (items : List Json), items ≠ [] →
    ∀ (level depth fuel : Nat) (blanks rest : List Char), (∀ c ∈ blanks, isSpace c) →
    2 * (spellItems s level items).length ≤ fuel →
    readItems? depth fuel (spellItems s level items ++ (blanks ++ ']' :: rest)) =
      (rereadItems depth items).map (·, rest)
  | [], hne, _, _, _, _, _, _, _ => absurd rfl hne
  | item :: items, _, level, depth, 0, blanks, rest, _, hfuel => by
    obtain ⟨c, body, htext, -⟩ := exists_spellItems s level item items
    rw [htext, List.length_append, List.length_cons] at hfuel
    omega
  | [item], _, level, depth, fuel + 1, blanks, rest, hblanks, hfuel => by
    have hlength : 2 * (spell s level item).length ≤ fuel + 1 := by
      simp only [spellItems, List.length_append] at hfuel
      omega
    have hitem := readValue?_spell s item level depth fuel (blanks ++ ']' :: rest)
      (stops_append hblanks (stops_cons (by simp) rest)) hlength
    rw [spellItems, List.append_assoc, readItems?, readValue?_append (s.newline_blank level), hitem,
      rereadItems, rereadItems]
    cases reread depth item with
    | none => rfl
    | some item =>
      simp only [Option.map_some, skipSpace_append hblanks]
      rw [skipSpace_cons (by rfl)]
      rfl
  | item :: next :: others, _, level, depth, fuel + 1, blanks, rest, hblanks, hfuel => by
    have hlength : 2 * (spell s level item).length ≤ fuel + 1 ∧
        2 * (spellItems s level (next :: others)).length ≤ fuel := by
      simp only [spellItems, List.length_append, List.length_cons] at hfuel
      omega
    have hitem := readValue?_spell s item level depth fuel
      (',' :: (spellItems s level (next :: others) ++ (blanks ++ ']' :: rest)))
      (stops_cons (by simp) _) hlength.1
    have hothers := readItems?_spell s (next :: others) (by simp) level depth fuel blanks rest
      hblanks hlength.2
    have htext : spellItems s level (item :: next :: others) ++ (blanks ++ ']' :: rest) =
        s.newline level ++ (spell s level item ++
          ',' :: (spellItems s level (next :: others) ++ (blanks ++ ']' :: rest))) := by
      simp [spellItems]
    rw [htext, readItems?, readValue?_append (s.newline_blank level), hitem, rereadItems]
    cases reread depth item with
    | none => rfl
    | some item =>
      simp only [Option.map_some]
      rw [skipSpace_cons (by rfl)]
      simp only [hothers]
      cases rereadItems depth (next :: others) <;> rfl

/-- Members are read up to the brace that closes them. The blanks before the first one take
    no fuel. -/
theorem readMembers?_spell (s : Spacing) : ∀ (members : List (String × Json)), members ≠ [] →
    ∀ (level depth fuel : Nat) (blanks rest : List Char), (∀ c ∈ blanks, isSpace c) →
    2 * (spellMembers s level members).length ≤ fuel + 2 * (s.newline level).length →
    readMembers? depth fuel (spellMembers s level members ++ (blanks ++ '\x7d' :: rest)) =
      (rereadMembers depth members).map (·, rest)
  | [], hne, _, _, _, _, _, _, _ => absurd rfl hne
  | (name, value) :: members, _, level, depth, 0, blanks, rest, _, hfuel => by
    obtain ⟨body, htext⟩ := exists_spellMembers s level (name, value) members
    rw [htext, List.length_append, List.length_cons] at hfuel
    omega
  | [(name, value)], _, level, depth, fuel + 1, blanks, rest, hblanks, hfuel => by
    have hlength : 2 * (spell s level value).length ≤ fuel + 1 := by
      simp only [spellMembers, List.length_append, List.length_cons] at hfuel
      omega
    have hvalue := readValue?_spell s value level depth fuel (blanks ++ '\x7d' :: rest)
      (stops_append hblanks (stops_cons (by simp) rest)) hlength
    have htext : spellMembers s level [(name, value)] ++ (blanks ++ '\x7d' :: rest) =
        s.newline level ++ ((stringText name).toList ++
          ':' :: (s.gap ++ (spell s level value ++ (blanks ++ '\x7d' :: rest)))) := by
      simp [spellMembers]
    rw [htext, readMembers?_name (s.newline_blank level), readValue?_append s.gap_blank, hvalue,
      rereadMembers, rereadMembers]
    cases reread depth value with
    | none => rfl
    | some value =>
      simp only [Option.map_some, skipSpace_append hblanks]
      rw [skipSpace_cons (by rfl)]
      rfl
  | (name, value) :: next :: others, _, level, depth, fuel + 1, blanks, rest, hblanks, hfuel => by
    have hlength : 2 * (spell s level value).length ≤ fuel + 1 ∧
        2 * (spellMembers s level (next :: others)).length ≤
          fuel + 2 * (s.newline level).length := by
      simp only [spellMembers, List.length_append, List.length_cons] at hfuel
      omega
    have hvalue := readValue?_spell s value level depth fuel
      (',' :: (spellMembers s level (next :: others) ++ (blanks ++ '\x7d' :: rest)))
      (stops_cons (by simp) _) hlength.1
    have hothers := readMembers?_spell s (next :: others) (by simp) level depth fuel blanks rest
      hblanks hlength.2
    have htext : spellMembers s level ((name, value) :: next :: others) ++ (blanks ++ '\x7d' :: rest) =
        s.newline level ++ ((stringText name).toList ++ ':' :: (s.gap ++ (spell s level value ++
          ',' :: (spellMembers s level (next :: others) ++ (blanks ++ '\x7d' :: rest))))) := by
      simp [spellMembers]
    rw [htext, readMembers?_name (s.newline_blank level), readValue?_append s.gap_blank, hvalue,
      rereadMembers]
    cases reread depth value with
    | none => rfl
    | some value =>
      simp only [Option.map_some]
      rw [skipSpace_cons (by rfl)]
      simp only [hothers]
      cases rereadMembers depth (next :: others) <;> rfl

end

/-! ### Whole texts -/

section
variable {s : Spacing} {level : Nat} {text : String} {blanks : List Char}

theorem readLeading?_spell (s : Spacing) (level : Nat) (value : Json) (hrest : Number.Stops rest) :
    readLeading? depth (spell s level value ++ rest) = (reread depth value).map (·, rest) := by
  unfold readLeading?
  refine readValue?_spell s value level depth _ rest hrest ?_
  rw [List.length_append]
  omega

/-- Blanks alone do not go on with anything. -/
theorem stops_blanks (h : ∀ c ∈ blanks, isSpace c) : Number.Stops blanks := by
  have hstops := stops_append h Number.stops_nil
  rwa [List.append_nil] at hstops

theorem skipSpace_blanks (h : ∀ c ∈ blanks, isSpace c) : skipSpace blanks = [] := by
  rw [← List.append_nil blanks, skipSpace_append h]
  rfl

/-- A text that spells a value, with blanks at its end, reads as the value rereads. -/
theorem parseWithin?_of_spell {value : Json} (htext : text.toList = spell s level value ++ blanks)
    (hblanks : ∀ c ∈ blanks, isSpace c) : parseWithin? depth text = reread depth value := by
  rw [parseWithin?, htext, readLeading?_spell s level value (stops_blanks hblanks)]
  cases reread depth value with
  | none => rfl
  | some value => simp [skipSpace_blanks hblanks]

/-- Compact text reads as the value rereads. -/
theorem parseWithin?_compact (value : Json) : parseWithin? depth value.compact = reread depth value := by
  have htext : value.compact.toList = spell dense 0 value ++ [] := by
    rw [toList_compact 0, List.append_nil]
  exact parseWithin?_of_spell htext fun _ h => nomatch h

/-- The members of a text that is one object with members. -/
theorem parseMembers?_of_open {inner : List Char} (htext : text.toList = '\x7b' :: inner)
    (h : ∀ rest, skipSpace inner ≠ '\x7d' :: rest) :
    parseMembers? text =
      (readMembers? (nesting - 1) (2 * (skipSpace inner).length + 2) (skipSpace inner)).bind
        fun (members, rest) => if (skipSpace rest).isEmpty then some members else none := by
  rw [parseMembers?, htext, skipSpace_cons (by rfl)]
  simp only
  rfl

/-- A text that spells an object gives its members one by one. -/
theorem parseMembers?_of_spell {members : List (String × Json)}
    (htext : text.toList = spell s level (.object members) ++ blanks)
    (hblanks : ∀ c ∈ blanks, isSpace c) :
    parseMembers? text = rereadMembers (nesting - 1) members := by
  cases members with
  | nil =>
    have hempty : text.toList = '\x7b' :: '\x7d' :: blanks := htext
    rw [parseMembers?, hempty, skipSpace_cons (by rfl)]
    simp only
    rw [skipSpace_cons (by rfl)]
    simp [skipSpace_blanks hblanks, rereadMembers]
  | cons member members =>
    have hopen : text.toList = '\x7b' :: (spellMembers s (level + 1) (member :: members) ++
        (s.newline level ++ '\x7d' :: blanks)) := by
      rw [htext]
      simp [spell]
    -- the blanks before the first name are skipped before the fuel is counted
    have hfuel : 2 * (spellMembers s (level + 1) (member :: members)).length ≤
        2 * (skipSpace (spellMembers s (level + 1) (member :: members) ++
          (s.newline level ++ '\x7d' :: blanks))).length + 2 +
            2 * (s.newline (level + 1)).length := by
      obtain ⟨body, hbody⟩ := exists_spellMembers s (level + 1) member members
      rw [hbody, List.append_assoc, skipSpace_append (s.newline_blank _), List.cons_append,
        skipSpace_cons (by rfl)]
      simp only [List.length_append, List.length_cons]
      omega
    have hread := readMembers?_spell s (member :: members) (by simp) (level + 1) (nesting - 1) _
      (s.newline level) blanks (s.newline_blank level) hfuel
    rw [parseMembers?_of_open hopen (skipSpace_spellMembers s _ member members _),
      readMembers?_skipSpace, hread]
    cases rereadMembers (nesting - 1) (member :: members) with
    | none => rfl
    | some members => simp [skipSpace_blanks hblanks]

end

/-! ### Lines -/

mutual

/-- Compact text has no line break. -/
theorem lineBreak_notMem_spell (level : Nat) : ∀ value : Json, '\n' ∉ spell dense level value
  | .null => by simp [spell]
  | .bool value => by cases value <;> simp [spell]
  | .number value => value.numeral_text.lineBreak_notMem
  | .string value => lineBreak_notMem_stringText value
  | .array [] | .object [] => by simp [spell]
  | .array (item :: items) => by
    have hitems := lineBreak_notMem_spellItems (level + 1) (item :: items)
    simp [spell, hitems]
  | .object (member :: members) => by
    have hmembers := lineBreak_notMem_spellMembers (level + 1) (member :: members)
    simp [spell, hmembers]

theorem lineBreak_notMem_spellItems (level : Nat) :
    ∀ items : List Json, '\n' ∉ spellItems dense level items
  | [] => List.not_mem_nil
  | [item] => by
    have hitem := lineBreak_notMem_spell level item
    simp [spellItems, hitem]
  | item :: next :: others => by
    have hitem := lineBreak_notMem_spell level item
    have hothers := lineBreak_notMem_spellItems level (next :: others)
    simp [spellItems, hitem, hothers]

theorem lineBreak_notMem_spellMembers (level : Nat) :
    ∀ members : List (String × Json), '\n' ∉ spellMembers dense level members
  | [] => List.not_mem_nil
  | [(name, value)] => by
    have hname := lineBreak_notMem_stringText name
    have hvalue := lineBreak_notMem_spell level value
    simp [spellMembers, hname, hvalue]
  | (name, value) :: next :: others => by
    have hname := lineBreak_notMem_stringText name
    have hvalue := lineBreak_notMem_spell level value
    have hothers := lineBreak_notMem_spellMembers level (next :: others)
    simp [spellMembers, hname, hvalue, hothers]

end

end Json

end Console
