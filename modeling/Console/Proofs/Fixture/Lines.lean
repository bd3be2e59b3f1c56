import Console.Fixture
import Console.Proofs.Json.Spelling

/-! # Lines of a text, and the entries on them

    - `Lined`: a text as its lines and the breaks behind them. The lines that a text is split
      into are its lines (`lined_splitLines`), and lines without breaks in them are what their
      text is split into (`Lined.splitLines_eq`),
    - `linesText`: entries in the lines layout. Each of its lines is read as the entry that it
      was printed of, with the packet as JSON reads it back (`parse?_lineOf`).
-/

namespace Console

namespace Fixture

/-! ### Lines of a text -/

/-- Says that a text has the given lines, with a break behind each but perhaps the last. -/
inductive Lined : List Char → List (List Char) → Prop
  | nothing : Lined [] []
  | last {line : List Char} : line ≠ [] → Lined line [line]
  | feed {line brk rest : List Char} {lines : List (List Char)} :
      brk = ['\n'] ∨ brk = ['\r', '\n'] → Lined rest lines →
      Lined (line ++ (brk ++ rest)) (line :: lines)

/-- A text has the lines that it is split into. -/
theorem lined_splitLines (current text : List Char) :
    Lined (current.reverse ++ text) (splitLines current text) := by
  fun_induction splitLines current text with
  | case1 current hempty =>
    rw [List.isEmpty_iff.1 hempty]
    exact .nothing
  | case2 current hempty =>
    rw [List.append_nil]
    exact .last (by simpa using hempty)
  | case3 current rest line ih =>
    cases current with
    | nil => exact .feed (.inl rfl) ih
    | cons c current =>
      by_cases hc : c = '\r'
      · subst hc
        have htext : ('\r' :: current).reverse ++ '\n' :: rest =
            current.reverse ++ (['\r', '\n'] ++ rest) := by simp
        rw [htext]
        exact .feed (.inr rfl) ih
      · have hline : line = c :: current := by
          subst line
          split
          · next heq => exact absurd (List.cons.inj heq).1 hc
          · rfl
        rw [hline]
        exact .feed (.inl rfl) ih
  | case4 current c rest hc ih =>
    rw [List.reverse_cons, List.append_assoc] at ih
    exact ih

namespace Lined

variable {text : List Char} {lines : List (List Char)} {p : Char → Bool}

/-- Of classes with the breaks in them, a text has all it has on its lines. -/
theorem all_eq (h : Lined text lines) (hfeed : p '\n') (hreturn : p '\r') :
    text.all p = lines.all (·.all p) := by
  induction h with
  | nothing => rfl
  | last => simp
  | feed hbreak _ ih => rcases hbreak with rfl | rfl <;> simp [ih, hfeed, hreturn]

/-- A line stands in the text between what is before it and what is after it. -/
theorem exists_split {before after : List (List Char)} {line : List Char}
    (h : Lined text (before ++ line :: after)) :
    ∃ lead tail, text = lead ++ (line ++ tail) ∧ ∀ p : Char → Bool, p '\n' → p '\r' →
      lead.all p = before.all (·.all p) ∧ tail.all p = after.all (·.all p) := by
  induction before generalizing text with
  | nil =>
    cases h with
    | last => exact ⟨[], [], by simp, fun _ _ _ => ⟨rfl, rfl⟩⟩
    | feed hbreak hrest =>
      refine ⟨[], _, rfl, fun p hfeed hreturn => ⟨rfl, ?_⟩⟩
      rw [← hrest.all_eq hfeed hreturn]
      rcases hbreak with rfl | rfl <;> simp [hfeed, hreturn]
  | cons first before ih =>
    rw [List.cons_append] at h
    generalize hlines : before ++ line :: after = lines at h
    cases h with
    | last => exact absurd hlines (by simp)
    | @feed _ brk _ _ hbreak hrest =>
      subst hlines
      obtain ⟨lead, tail, rfl, hall⟩ := ih hrest
      refine ⟨first ++ (brk ++ lead), tail, by simp only [List.append_assoc],
        fun p hfeed hreturn => ?_⟩
      obtain ⟨hlead, htail⟩ := hall p hfeed hreturn
      refine ⟨?_, htail⟩
      rcases hbreak with rfl | rfl <;> simp [hlead, hfeed, hreturn]

end Lined

/-- A text with a break behind each of its lines. -/
theorem lined_flatMap (lines : List (List Char)) : Lined (lines.flatMap (· ++ ['\n'])) lines := by
  induction lines with
  | nil => exact .nothing
  | cons line rest ih =>
    rw [List.flatMap_cons, List.append_assoc]
    exact .feed (.inl rfl) ih

/-! ### Lines without breaks in them -/

/-- The start of a line waits for its line break. -/
theorem splitLines_append {line : List Char} (h : '\n' ∉ line) (current rest : List Char) :
    splitLines current (line ++ rest) = splitLines (line.reverse ++ current) rest := by
  induction line generalizing current with
  | nil => rfl
  | cons c line ih =>
    rw [List.mem_cons, not_or] at h
    have hc : c ≠ '\n' := fun e => h.1 e.symm
    rw [List.cons_append, splitLines, ih h.2]
    · simp
    · exact hc

/-- Says that a line has no break in it, nor the start of one at its end. -/
def Unbroken (line : List Char) : Prop := '\n' ∉ line ∧ line.getLast? ≠ some '\r'

/-- A line is taken off its text with the break behind it. -/
theorem splitLines_feed {line brk : List Char} (h : Unbroken line)
    (hbreak : brk = ['\n'] ∨ brk = ['\r', '\n']) (rest : List Char) :
    splitLines [] (line ++ (brk ++ rest)) = line :: splitLines [] rest := by
  rw [splitLines_append h.1, List.append_nil]
  rcases hbreak with rfl | rfl
  · -- only a return at the end of the line would be taken for a part of the break
    have hreturn : ∀ others, line.reverse ≠ '\r' :: others := by
      intro others hline
      have hlast : line.reverse.head? = some '\r' := by rw [hline]; rfl
      exact h.2 (by rwa [List.head?_reverse] at hlast)
    rw [List.singleton_append, splitLines, List.reverse_reverse]
    exact hreturn
  · rw [List.cons_append, List.singleton_append, splitLines, splitLines, List.reverse_reverse]
    decide

/-- A text is split into its lines, if none of them has a break in it. -/
theorem Lined.splitLines_eq {text : List Char} {lines : List (List Char)} (h : Lined text lines)
    (hlines : ∀ line ∈ lines, Unbroken line) : splitLines [] text = lines := by
  induction h with
  | nothing => rfl
  | @last line hline =>
    have hunbroken := hlines line List.mem_cons_self
    have hsplit := splitLines_append hunbroken.1 [] []
    rw [List.append_nil, List.append_nil] at hsplit
    rw [hsplit, splitLines]
    simp [hline]
  | feed hbreak _ ih =>
    rw [splitLines_feed (hlines _ List.mem_cons_self) hbreak,
      ih fun line hline => hlines line (List.mem_cons_of_mem _ hline)]

/-! ### Printed entries -/

/-- The entry of a line. -/
def entryOf (key : String) (packet : Json) : Json :=
  .object [("key", .string key), ("packet", packet)]

/-- The line of an entry, without its line break. -/
def lineOf (entry : String × Json) : List Char := (entryOf entry.1 entry.2).compact.toList

/-- Entries in the lines layout. -/
def linesText (entries : List (String × Json)) : String :=
  String.join (entries.map fun entry => (entryOf entry.1 entry.2).compact ++ "\n")

theorem writeLines_eq (store : Store) :
    writeLines store = linesText (store.entries.map fun entry => (entry.1, entry.2.toPacket)) := by
  rw [linesText, List.map_map]
  rfl

/-- A line is an object in braces. -/
theorem exists_lineOf (entry : String × Json) : ∃ body, lineOf entry = '\x7b' :: (body ++ ['\x7d']) := by
  refine ⟨Json.spellMembers Json.dense 1 [("key", .string entry.1), ("packet", entry.2)], ?_⟩
  rw [lineOf, Json.toList_compact 0]
  simp [entryOf, Json.spell]

/-- A line that begins with a brace is not blank. -/
theorem not_blank_lineOf (entry : String × Json) :
    (lineOf entry).all Unicode.blank.contains = false := by
  obtain ⟨body, hbody⟩ := exists_lineOf entry
  have hbrace : Unicode.blank.contains '\x7b' = false := by decide
  rw [hbody, List.all_cons, hbrace, Bool.false_and]

theorem unbroken_lineOf (entry : String × Json) : Unbroken (lineOf entry) := by
  constructor
  · rw [lineOf, Json.toList_compact 0]
    exact Json.lineBreak_notMem_spell 0 _
  · obtain ⟨body, hbody⟩ := exists_lineOf entry
    rw [hbody, ← List.cons_append, List.getLast?_concat]
    decide

theorem toList_linesText (entries : List (String × Json)) :
    (linesText entries).toList = (entries.map lineOf).flatMap (· ++ ['\n']) := by
  simp [linesText, lineOf, String.toList_join, List.flatMap_map]

theorem lined_linesText (entries : List (String × Json)) :
    Lined (linesText entries).toList (entries.map lineOf) := by
  rw [toList_linesText]
  exact lined_flatMap _

theorem splitLines_linesText (entries : List (String × Json)) :
    splitLines [] (linesText entries).toList = entries.map lineOf :=
  (lined_linesText entries).splitLines_eq (List.forall_mem_map.2 fun entry _ => unbroken_lineOf entry)

/-- A line is read as the entry with the packet as it reads back. -/
theorem parse?_lineOf (entry : String × Json) : Json.parse? (String.ofList (lineOf entry)) =
    (Json.reread (Json.nesting - 1) entry.2).map (entryOf entry.1) := by
  rw [lineOf, String.ofList_toList, Json.parse?, Json.parseWithin?_compact]
  show (Json.rereadMembers (Json.nesting - 1) [("key", .string entry.1), ("packet", entry.2)]).map
    Json.ofMembers = _
  rw [Json.rereadMembers, Json.reread, Json.rereadMembers]
  cases Json.reread (Json.nesting - 1) entry.2 <;> rfl

end Fixture

end Console
