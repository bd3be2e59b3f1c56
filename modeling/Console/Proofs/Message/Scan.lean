import Console.Message.Template

/-! # What scanning a template finds

    A mark is the escape `%%`, or a `%` with the letter of a conversion and, before it, an
    optional precision: a point with digits of any script. Scanning cuts a text from the left:
    where a mark begins it is a piece, and where none begins a character stands for itself.

    - `Piece.Mark`: the marks, with `Piece.source` for how they are written,
    - `Template.Cut`: the leftmost cut of a text, in which no two marks overlap,
    - `Directive.read?_eq_some_iff`: a directive is read where one is written,
    - `Template.cut_iff`: a text has one cut, which is what scanning finds,
    - `Template.isTemplate_iff`: a text is a template if there is a mark anywhere in it.
-/

namespace Console

/-! ### Marks -/

/-- Says that a directive can be written: a precision has digits, and the conversion is the
    one that its letter stands for. -/
structure Directive.WellFormed (d : Directive) : Prop where
  digits : ∀ digits, d.precision = some digits →
    digits ≠ [] ∧ ∀ c ∈ digits, Unicode.decimalDigit.contains c
  letter : Conversion.ofChar? d.conversion.letter = some d.conversion

namespace Piece

/-- The characters of a piece. -/
def source : Piece → List Char
  | char c => [c]
  | percent => ['%', '%']
  | directive d => d.source

/-- The pieces that are more than a character. -/
inductive Mark : Piece → Prop where
  | percent : Mark .percent
  | directive {d : Directive} : d.WellFormed → Mark (.directive d)

theorem Mark.exists_source {piece : Piece} (h : piece.Mark) :
    ∃ rest, piece.source = '%' :: rest := by
  cases h with
  | percent => exact ⟨['%'], rfl⟩
  | @directive d _ => exact ⟨d.precision.elim [] ('.' :: ·) ++ [d.conversion.letter], rfl⟩

end Piece

namespace Template

/-- Says that a text begins with a mark. -/
def StartsMark (text : List Char) : Prop :=
  ∃ piece after, Piece.Mark piece ∧ text = piece.source ++ after

/-- Says that there is a mark in a text. -/
def Marked (text : List Char) : Prop :=
  ∃ before piece after, Piece.Mark piece ∧ text = before ++ piece.source ++ after

/-- The cuts of a text into its pieces: a mark is cut off where one begins, and else a single
    character. -/
inductive Cut : List Char → List Piece → Prop where
  | nil : Cut [] []
  | mark {piece : Piece} {rest : List Char} {pieces : List Piece} :
    piece.Mark → Cut rest pieces → Cut (piece.source ++ rest) (piece :: pieces)
  | char {c : Char} {rest : List Char} {pieces : List Piece} :
    ¬ StartsMark (c :: rest) → Cut rest pieces → Cut (c :: rest) (.char c :: pieces)

end Template

/-! ### Reading a directive -/

namespace Conversion

/-- A conversion is written with the letter that stands for it. -/
theorem letter_of_ofChar? {c : Char} {k : Conversion} (h : ofChar? c = some k) : k.letter = c := by
  unfold ofChar? at h
  split at h <;> cases h <;> rfl

/-- No letter that stands for a conversion is a digit or a point. -/
theorem letter_distinct {c : Char} {k : Conversion} (h : ofChar? c = some k) :
    Unicode.decimalDigit.contains c = false ∧ c ≠ '.' := by
  unfold ofChar? at h
  split at h
  case h_8 => cases h
  all_goals decide

end Conversion

namespace Directive

/-- What is read is a directive as it is written. -/
theorem source_of_read? {text rest : List Char} {d : Directive} (h : read? text = some (d, rest)) :
    d.WellFormed ∧ '%' :: text = d.source ++ rest := by
  unfold read? at h
  split at h
  · cases h
  · next tail =>
    split at h
    · cases h
    · cases h
    · next c after hafter hne =>
      obtain ⟨k, hk, heq⟩ := Option.map_eq_some_iff.1 h
      cases heq
      have hletter : k.letter = c := Conversion.letter_of_ofChar? hk
      refine ⟨⟨?_, by rw [hletter, hk]⟩, ?_⟩
      · rintro _ ⟨⟩
        exact ⟨hne, List.all_eq_true.1 List.all_takeWhile⟩
      · have hsplit := @List.takeWhile_append_dropWhile _ Unicode.decimalDigit.contains tail
        rw [hafter] at hsplit
        simp [source, hletter, hsplit]
  · next c tail hne =>
    obtain ⟨k, hk, heq⟩ := Option.map_eq_some_iff.1 h
    cases heq
    have hletter : k.letter = c := Conversion.letter_of_ofChar? hk
    refine ⟨⟨?_, by rw [hletter, hk]⟩, ?_⟩
    · rintro _ ⟨⟩
    · rw [source, hletter]
      rfl

/-- A directive that is written is read. -/
theorem read?_of_source {text rest : List Char} {d : Directive} (hd : d.WellFormed)
    (h : '%' :: text = d.source ++ rest) : read? text = some (d, rest) := by
  obtain ⟨precision, k⟩ := d
  obtain ⟨hdigit, hpoint⟩ := Conversion.letter_distinct hd.letter
  cases precision with
  | none =>
    have htext : text = k.letter :: rest := by simpa [source] using h
    subst htext
    unfold read?
    split
    · next heq => cases heq
    · next heq => exact absurd (List.cons.inj heq).1 hpoint
    · next heq =>
      cases heq
      rw [hd.letter]
      rfl
  | some digits =>
    obtain ⟨hne, hall⟩ := hd.digits digits rfl
    have htext : text = '.' :: (digits ++ k.letter :: rest) := by simpa [source] using h
    subst htext
    have htake : (digits ++ k.letter :: rest).takeWhile Unicode.decimalDigit.contains = digits := by
      rw [List.takeWhile_append_of_pos hall, List.takeWhile_cons_of_neg (by simp [hdigit]),
        List.append_nil]
    have hdrop : (digits ++ k.letter :: rest).dropWhile Unicode.decimalDigit.contains =
        k.letter :: rest := by
      rw [List.dropWhile_append_of_pos hall, List.dropWhile_cons_of_neg (by simp [hdigit])]
    simp only [read?, htake, hdrop]
    rw [hd.letter]
    rfl

/-- A directive is read exactly where one is written. -/
theorem read?_eq_some_iff {text rest : List Char} {d : Directive} :
    read? text = some (d, rest) ↔ d.WellFormed ∧ '%' :: text = d.source ++ rest :=
  ⟨source_of_read?, fun h => read?_of_source h.1 h.2⟩

end Directive

/-! ### Cuts -/

namespace Template

/-- An escape is no directive. -/
theorem read?_percent (rest : List Char) : Directive.read? ('%' :: rest) = none := rfl

/-- At one place in a text there is one mark at most. -/
theorem mark_unique {p q : Piece} {r s : List Char} (hp : p.Mark) (hq : q.Mark)
    (h : p.source ++ r = q.source ++ s) : p = q ∧ r = s := by
  cases hp with
  | percent =>
    cases hq with
    | percent => exact ⟨rfl, by simpa [Piece.source] using h⟩
    | directive hd =>
      have hread := @Directive.read?_of_source ('%' :: r) _ _ hd h
      rw [read?_percent] at hread
      cases hread
  | @directive d hd =>
    cases hq with
    | percent =>
      have hread := @Directive.read?_of_source ('%' :: s) _ _ hd h.symm
      rw [read?_percent] at hread
      cases hread
    | directive hd' =>
      obtain ⟨tail, htail⟩ := (Piece.Mark.directive hd).exists_source
      have hsource : '%' :: (tail ++ r) = d.source ++ r := by
        rw [← List.cons_append, ← htail]
        rfl
      have hread := Directive.read?_of_source hd hsource
      rw [Directive.read?_of_source hd' (hsource.trans h)] at hread
      cases hread
      exact ⟨rfl, rfl⟩

/-- Scanning cuts a text. -/
theorem cut_scan (text : List Char) : Cut text (scan text) := by
  fun_induction scan text with
  | case1 => exact .nil
  | case2 rest ih => exact .mark .percent ih
  | case3 rest hne d after hread ih =>
    obtain ⟨hd, hsource⟩ := Directive.source_of_read? hread
    rw [hsource]
    exact .mark (.directive hd) ih
  | case4 rest hne hread ih =>
    -- neither an escape nor a directive is written here
    refine .char ?_ ih
    rintro ⟨piece, after, hmark, hstart⟩
    cases hmark with
    | percent => exact hne after (List.cons.inj hstart).2
    | directive hd =>
      rw [Directive.read?_of_source hd hstart] at hread
      cases hread
  | case5 c rest hne hpercent ih =>
    -- all marks begin with the same character
    refine .char ?_ ih
    rintro ⟨piece, after, hmark, hstart⟩
    obtain ⟨tail, htail⟩ := hmark.exists_source
    rw [htail] at hstart
    exact hpercent (List.cons.inj hstart).1

/-- A text has one cut at most. -/
theorem Cut.unique {text : List Char} {pieces others : List Piece} (h : Cut text pieces)
    (h' : Cut text others) : pieces = others := by
  induction h generalizing others with
  | nil =>
    generalize htext : ([] : List Char) = text at h'
    cases h' with
    | nil => rfl
    | mark hmark =>
      obtain ⟨tail, htail⟩ := hmark.exists_source
      rw [htail] at htext
      cases htext
    | char => cases htext
  | @mark piece rest pieces hmark _ ih =>
    generalize htext : piece.source ++ rest = text at h'
    cases h' with
    | nil =>
      obtain ⟨tail, htail⟩ := hmark.exists_source
      rw [htail] at htext
      cases htext
    | mark hmark' hrest =>
      obtain ⟨rfl, rfl⟩ := mark_unique hmark hmark' htext
      rw [ih hrest]
    | char hnot => exact absurd ⟨piece, rest, hmark, htext.symm⟩ hnot
  | @char c rest pieces hnot _ ih =>
    generalize htext : c :: rest = text at h'
    cases h' with
    | nil => cases htext
    | mark hmark => exact absurd ⟨_, _, hmark, htext⟩ hnot
    | char _ hrest =>
      cases htext
      rw [ih hrest]

/-- The cut of a text is what scanning finds. -/
theorem cut_iff {text : List Char} {pieces : List Piece} : Cut text pieces ↔ pieces = scan text :=
  ⟨fun h => h.unique (cut_scan text), fun h => h ▸ cut_scan text⟩

/-- The pieces of a cut make up the text. -/
theorem Cut.flatMap_source {text : List Char} {pieces : List Piece} (h : Cut text pieces) :
    pieces.flatMap Piece.source = text := by
  induction h with
  | nil => rfl
  | mark _ _ ih => rw [List.flatMap_cons, ih]
  | char _ _ ih => rw [List.flatMap_cons, ih]; rfl

/-- All pieces of a cut are marks or characters. -/
theorem Cut.mark_or_char {text : List Char} {pieces : List Piece} (h : Cut text pieces) :
    ∀ piece ∈ pieces, piece.Mark ∨ ∃ c, piece = .char c := by
  induction h with
  | nil => simp
  | mark hmark _ ih => exact List.forall_mem_cons.2 ⟨.inl hmark, ih⟩
  | @char c _ _ _ _ ih => exact List.forall_mem_cons.2 ⟨.inr ⟨c, rfl⟩, ih⟩

/-- A cut of a text in which there is a mark has one. -/
theorem Cut.exists_mark {text : List Char} {pieces : List Piece} (h : Cut text pieces)
    (hmarked : Marked text) : ∃ piece ∈ pieces, piece.Mark := by
  -- a mark that is written somewhere may overlap with an earlier one, but not precede all
  induction h with
  | nil =>
    obtain ⟨before, piece, after, hmark, htext⟩ := hmarked
    obtain ⟨tail, htail⟩ := hmark.exists_source
    simp [htail] at htext
  | mark hmark => exact ⟨_, List.mem_cons_self, hmark⟩
  | @char c rest pieces hnot _ ih =>
    obtain ⟨before, piece, after, hmark, htext⟩ := hmarked
    cases before with
    | nil => exact absurd ⟨piece, after, hmark, htext⟩ hnot
    | cons first before =>
      have hrest : rest = before ++ piece.source ++ after := (List.cons.inj htext).2
      obtain ⟨found, hmem, hfound⟩ := ih ⟨before, piece, after, hmark, hrest⟩
      exact ⟨found, List.mem_cons_of_mem _ hmem, hfound⟩

/-- A text is a template if there is a mark anywhere in it. -/
theorem isTemplate_iff {text : String} : isTemplate text ↔ Marked text.toList := by
  have hcut := cut_scan text.toList
  unfold isTemplate
  rw [List.any_eq_true]
  constructor
  · rintro ⟨piece, hmem, hpiece⟩
    obtain ⟨before, after, hsplit⟩ := List.append_of_mem hmem
    have hmark : piece.Mark := by
      rcases hcut.mark_or_char piece hmem with hmark | ⟨c, rfl⟩
      · exact hmark
      · cases hpiece
    refine ⟨before.flatMap Piece.source, piece, after.flatMap Piece.source, hmark, ?_⟩
    rw [← hcut.flatMap_source, hsplit]
    simp
  · intro hmarked
    obtain ⟨piece, hmem, hmark⟩ := hcut.exists_mark hmarked
    refine ⟨piece, hmem, ?_⟩
    cases hmark with
    | percent => rfl
    | directive => rfl

end Template

end Console
