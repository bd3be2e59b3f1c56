import Console.Proofs.Message.Expansion

/-! # Templates that show only text

    A template whose directives start no style and show no value of their own is shown as one
    text, with the arguments that it does not take after it.

    - `Formatted.expand_of_plain`: such a template is one parameter, its text,
    - `Template.collapse`: a text with each `%%` read as `%`,
    - `Formatted.escapes_collapse`: a template without arguments is shown as it is written but
      for its escapes,
    - `Template.strings`: a template of `%s` directives,
    - `Formatted.strings_in_order`: such directives take texts in order, and the texts that are
      left follow after a space each, unless nothing has been shown before them.
-/

namespace Console

/-! ### Fillings that are no more than text -/

namespace Segments

/-- Fillings that are no more than text are added as one text. -/
theorem foldl_add_plain {fillings : List Filling} (h : ∀ f ∈ fillings, f.Plain) (s : Segments) :
    fillings.foldl add s = s.push (String.join (fillings.map Filling.display)) := by
  induction fillings generalizing s with
  | nil => simp [push]
  | cons f rest ih =>
    obtain ⟨hf, hrest⟩ := List.forall_mem_cons.1 h
    have hadd : s.add f = s.push f.display := by
      unfold add
      rw [hf.style, hf.front]
    rw [List.foldl_cons, hadd, ih hrest, List.map_cons, String.join_cons]
    simp [push, String.append_assoc]

/-- A text that was added to nothing is one part, or none if it is empty. -/
theorem finish_push (text : String) :
    (({} : Segments).push text).finish = ⟨if text.isEmpty then [] else [.text text], [], text⟩ := by
  unfold finish flush push
  by_cases h : text.isEmpty
  · simp [String.isEmpty_iff.1 h]
  · simp [h, Parameter.display]

end Segments

/-- A template that shows only text is one parameter, followed by the arguments that it does
    not take. -/
theorem Formatted.expand_of_plain {template : String} {arguments : List Parameter}
    (h : ∀ f ∈ Template.fillings (Template.scan template.toList) arguments, f.Plain) :
    let pieces := Template.scan template.toList
    let shown := String.join ((Template.fillings pieces arguments).map Filling.display)
    let rest := arguments.drop (Template.demand pieces)
    expand template arguments =
      ⟨(if shown.isEmpty then [] else [.text shown]) ++ rest, [], appendTexts shown rest⟩ := by
  intro pieces shown rest
  have hfill : ({} : Segments).fill pieces arguments = (({} : Segments).push shown, rest) := by
    rw [Segments.fill_eq, Segments.foldl_add_plain h]
  unfold expand
  rw [hfill]
  simp only [Segments.finish_push]

/-! ### Escapes -/

/-- The tail of a directive has no `%`, so no escape begins inside a directive. -/
theorem Directive.exists_tail {d : Directive} (hd : d.WellFormed) :
    ∃ tail, d.source = '%' :: tail ∧ tail ≠ [] ∧ '%' ∉ tail := by
  refine ⟨d.precision.elim [] ('.' :: ·) ++ [d.conversion.letter], rfl, by simp, ?_⟩
  have hletter : d.conversion.letter ≠ '%' := by
    intro heq
    have hnone : Conversion.ofChar? '%' = none := rfl
    rw [← heq, hd.letter] at hnone
    cases hnone
  cases hprecision : d.precision with
  | none => simpa using hletter.symm
  | some digits =>
    obtain ⟨-, hdigits⟩ := hd.digits digits hprecision
    have hdigit : '%' ∉ digits := by
      intro hmem
      have hcontains : Unicode.decimalDigit.contains '%' = false := by decide
      rw [hdigits '%' hmem] at hcontains
      cases hcontains
    simpa [hdigit] using hletter.symm

namespace Template

/-- The text with `%` for each `%%`, from the left and without overlap. All else is kept. -/
def collapse : List Char → List Char
  | '%' :: '%' :: rest => '%' :: collapse rest
  | c :: rest => c :: collapse rest
  | [] => []

/-- A character that begins no escape is kept. -/
theorem collapse_cons {c : Char} {rest : List Char} (h : ∀ tail, c :: rest ≠ '%' :: '%' :: tail) :
    collapse (c :: rest) = c :: collapse rest := by
  rw [collapse]
  intro tail hc hrest
  exact h tail (by rw [hc, hrest])

theorem collapse_append {text : List Char} (h : '%' ∉ text) (rest : List Char) :
    collapse (text ++ rest) = text ++ collapse rest := by
  induction text with
  | nil => rfl
  | cons c text ih =>
    obtain ⟨hc, htext⟩ : '%' ≠ c ∧ '%' ∉ text := by simpa using h
    have hno : ∀ tail, c :: (text ++ rest) ≠ '%' :: '%' :: tail := by
      intro tail heq
      exact hc (List.cons.inj heq).1.symm
    rw [List.cons_append, collapse_cons hno, ih htext, List.cons_append]

/-- A directive is kept as it is written. -/
theorem collapse_source {d : Directive} (hd : d.WellFormed) (rest : List Char) :
    collapse (d.source ++ rest) = d.source ++ collapse rest := by
  obtain ⟨tail, hsource, hne, hpercent⟩ := d.exists_tail hd
  have hno : ∀ others, '%' :: (tail ++ rest) ≠ '%' :: '%' :: others := by
    -- the directive goes on after its `%` with a point or a letter
    intro others heq
    cases tail with
    | nil => exact hne rfl
    | cons c tail =>
      have hc : c = '%' := (List.cons.inj (List.cons.inj heq).2).1
      exact hpercent (hc ▸ List.mem_cons_self)
  rw [hsource, List.cons_append, collapse_cons hno, collapse_append hpercent, List.cons_append]

/-- Where no mark begins, no escape begins. -/
theorem collapse_of_not_startsMark {c : Char} {rest : List Char} (h : ¬ StartsMark (c :: rest)) :
    collapse (c :: rest) = c :: collapse rest := by
  apply collapse_cons
  intro tail heq
  exact h ⟨.percent, tail, .percent, heq⟩

theorem collapse_of_not_marked {text : List Char} (h : ¬ Marked text) : collapse text = text := by
  induction text with
  | nil => rfl
  | cons c rest ih =>
    have hstart : ¬ StartsMark (c :: rest) := by
      rintro ⟨piece, after, hmark, htext⟩
      exact h ⟨[], piece, after, hmark, htext⟩
    have hrest : ¬ Marked rest := by
      rintro ⟨before, piece, after, hmark, rfl⟩
      exact h ⟨c :: before, piece, after, hmark, by simp⟩
    rw [collapse_of_not_startsMark hstart, ih hrest]

theorem collapse_ne_nil {text : List Char} (h : text ≠ []) : collapse text ≠ [] := by
  fun_cases collapse text with
  | case1 => simp
  | case2 => simp
  | case3 => exact absurd rfl h

/-- Without arguments each piece is filled with none. -/
theorem fillings_nil (pieces : List Piece) : fillings pieces [] = pieces.map (⟨·, none⟩) := by
  apply List.ext_getElem?
  intro i
  simp [fillings]

/-- A piece without an argument is no more than text. -/
theorem plain_of_mem_fillings_nil {pieces : List Piece} : ∀ f ∈ fillings pieces [], f.Plain := by
  intro f hf
  rw [fillings_nil] at hf
  obtain ⟨piece, -, rfl⟩ := List.mem_map.1 hf
  cases piece with
  | directive d =>
    obtain ⟨precision, k⟩ := d
    cases k <;> exact ⟨rfl, rfl⟩
  | _ => exact ⟨rfl, rfl⟩

/-- The pieces of a text, shown without arguments, are the text with its escapes collapsed. -/
theorem Cut.join_fillings_nil {text : List Char} {pieces : List Piece} (h : Cut text pieces) :
    String.join ((fillings pieces []).map Filling.display) = String.ofList (collapse text) := by
  rw [fillings_nil, List.map_map]
  induction h with
  | nil => rfl
  | @mark piece rest pieces hmark _ ih =>
    rw [List.map_cons, String.join_cons, ih]
    cases hmark with
    | percent =>
      show "%" ++ String.ofList (collapse rest) = String.ofList ('%' :: collapse rest)
      rw [String.ofList_cons]
      rfl
    | @directive d hd =>
      show String.ofList d.source ++ String.ofList (collapse rest) =
        String.ofList (collapse (d.source ++ rest))
      rw [collapse_source hd, String.ofList_append]
  | @char c rest pieces hstart _ ih =>
    rw [List.map_cons, String.join_cons, ih, collapse_of_not_startsMark hstart, String.ofList_cons]
    rfl

end Template

/-- A text without arguments is shown as it is written but for its escapes, whether it is a
    template or not. It is one parameter, without styles. -/
theorem Formatted.escapes_collapse (text : String) :
    let shown := String.ofList (Template.collapse text.toList)
    ofArguments [.text text] = ⟨[.text shown], [], shown⟩ := by
  intro shown
  by_cases hmarked : Template.Marked text.toList
  · have hne : text.toList ≠ [] := by
      intro hnil
      obtain ⟨before, piece, after, hmark, htext⟩ := hmarked
      obtain ⟨tail, htail⟩ := hmark.exists_source
      simp [hnil, htail] at htext
    have hshown : ¬ shown.isEmpty := by
      rw [String.isEmpty_iff, String.ofList_eq_empty_iff]
      exact Template.collapse_ne_nil hne
    rw [ofArguments_of_marked hmarked, expand_of_plain Template.plain_of_mem_fillings_nil,
      (Template.cut_scan text.toList).join_fillings_nil, if_neg hshown]
    rw [List.drop_nil, List.append_nil]
    rfl
  · have hshown : shown = text := by
      show String.ofList (Template.collapse text.toList) = text
      rw [Template.collapse_of_not_marked hmarked, String.ofList_toList]
    rw [ofArguments_of_not_marked hmarked, hshown]
    simp [plain, Parameter.display]

/-- Escapes are found from the left, and directives and what looks like one stay. -/
example :
    Formatted.ofArguments [.text "%%%d%.3%%%"] = ⟨[.text "%%d%.3%%"], [], "%%d%.3%%"⟩ := by
  decide +kernel

/-! ### Texts after a template -/

/-- Texts between separators are the first one and each further one after a separator. -/
theorem intercalate_cons_eq (separator text : String) (rest : List String) :
    separator.intercalate (text :: rest) = text ++ String.join (rest.map (separator ++ ·)) := by
  induction rest generalizing text with
  | nil => simp
  | cons next rest ih =>
    rw [String.intercalate_cons_cons, ih, List.map_cons, String.join_cons]
    simp only [String.append_assoc]

/-- After a text that is not empty, each parameter follows a space. -/
theorem appendTexts_of_ne {text : String} (h : text ≠ "") (parameters : List Parameter) :
    appendTexts text parameters =
      text ++ String.join (parameters.map fun p => " " ++ p.display) := by
  induction parameters generalizing text with
  | nil => simp [appendTexts]
  | cons p rest ih =>
    have hempty : ¬ text.isEmpty := fun hempty => h (String.isEmpty_iff.1 hempty)
    have hnext : text ++ " " ++ p.display ≠ "" := by simp
    show appendTexts ((if text.isEmpty then text else text ++ " ") ++ p.display) rest = _
    rw [if_neg hempty, ih hnext, List.map_cons, String.join_cons]
    simp only [String.append_assoc]

/-- Where nothing has been shown, empty parameters leave no trace. -/
theorem appendTexts_empty (parameters : List Parameter) :
    appendTexts "" parameters =
      " ".intercalate ((parameters.map Parameter.display).dropWhile String.isEmpty) := by
  induction parameters with
  | nil => rfl
  | cons p rest ih =>
    show appendTexts ("" ++ p.display) rest = _
    rw [String.empty_append, List.map_cons]
    by_cases hempty : p.display.isEmpty
    · rw [List.dropWhile_cons_of_pos hempty, String.isEmpty_iff.1 hempty, ih]
    · have hne : p.display ≠ "" := fun heq => hempty (String.isEmpty_iff.2 heq)
      rw [List.dropWhile_cons_of_neg hempty, appendTexts_of_ne hne, intercalate_cons_eq, List.map_map]
      rfl

/-- Where nothing has been shown, at least one space is missing before the parameters. -/
theorem length_appendTexts_empty_lt {parameters : List Parameter} (h : parameters ≠ []) :
    (appendTexts "" parameters).length <
      (String.join (parameters.map fun p => " " ++ p.display)).length := by
  induction parameters with
  | nil => exact absurd rfl h
  | cons p rest ih =>
    show (appendTexts ("" ++ p.display) rest).length < _
    rw [String.empty_append, List.map_cons, String.join_cons]
    by_cases hempty : p.display = ""
    · rw [hempty]
      by_cases hrest : rest = []
      · subst hrest
        decide
      · have hlt := ih hrest
        simp only [String.length_append]
        omega
    · rw [appendTexts_of_ne hempty]
      have hspace : " ".length = 1 := rfl
      simp only [String.length_append, hspace]
      omega

/-- There is a space before each parameter exactly if something stands before all of them. -/
theorem appendTexts_eq_iff {text : String} {parameters : List Parameter} :
    appendTexts text parameters =
        text ++ String.join (parameters.map fun p => " " ++ p.display) ↔
      text ≠ "" ∨ parameters = [] := by
  constructor
  · intro heq
    by_cases htext : text = ""
    · by_cases hne : parameters = []
      · exact .inr hne
      · have hlt := length_appendTexts_empty_lt hne
        rw [htext, String.empty_append] at heq
        rw [heq] at hlt
        exact absurd hlt (Nat.lt_irrefl _)
    · exact .inl htext
  · rintro (hne | rfl)
    · exact appendTexts_of_ne hne parameters
    · simp [appendTexts]

/-! ### Templates of strings -/

namespace Template

/-- A template of `%s` directives between hyphens. -/
def strings (n : Nat) : String := "-".intercalate (List.replicate n "%s")

/-- The directive `%s`. -/
def stringDirective : Piece := .directive ⟨none, .text⟩

/-- The pieces of `n` further directives, each after a hyphen. -/
def furtherStrings : Nat → List Piece
  | 0 => []
  | n + 1 => .char '-' :: stringDirective :: furtherStrings n

/-- The texts that `n` directives show: the first ones, and themselves where there are no more. -/
def shownStrings (n : Nat) (words : List String) : List String :=
  words.take n ++ List.replicate (n - words.length) "%s"

theorem shownStrings_succ (n : Nat) (words : List String) :
    shownStrings (n + 1) words = words.head?.getD "%s" :: shownStrings n words.tail := by
  cases words with
  | nil => simp [shownStrings, List.replicate_succ]
  | cons word words => simp [shownStrings]

theorem mark_stringDirective : stringDirective.Mark := by
  apply Piece.Mark.directive
  exact ⟨by simp, rfl⟩

theorem cut_furtherStrings (n : Nat) :
    Cut ((furtherStrings n).flatMap Piece.source) (furtherStrings n) := by
  induction n with
  | zero => exact .nil
  | succ n ih =>
    apply Cut.char _ (Cut.mark mark_stringDirective ih)
    -- no mark begins with a hyphen
    rintro ⟨piece, after, hmark, htext⟩
    obtain ⟨tail, htail⟩ := hmark.exists_source
    rw [htail] at htext
    cases htext

theorem toList_strings (n : Nat) :
    (strings (n + 1)).toList = stringDirective.source ++ (furtherStrings n).flatMap Piece.source := by
  induction n with
  | zero => rfl
  | succ n ih =>
    have hsplit : strings (n + 2) = "%s" ++ "-" ++ strings (n + 1) := by
      unfold strings
      rw [List.replicate_succ, List.replicate_succ, String.intercalate_cons_cons]
    rw [hsplit, String.toList_append, ih]
    rfl

theorem scan_strings (n : Nat) :
    scan (strings (n + 1)).toList = stringDirective :: furtherStrings n := by
  rw [toList_strings]
  exact (cut_iff.1 (.mark mark_stringDirective (cut_furtherStrings n))).symm

theorem marked_strings (n : Nat) : Marked (strings (n + 1)).toList :=
  ⟨[], stringDirective, _, mark_stringDirective, toList_strings n⟩

/-! ### What the directives of strings show -/

theorem consumes_stringDirective : stringDirective.Consumes := by
  intro digits h
  cases h

theorem fillings_furtherStrings (n : Nat) (arguments : List Parameter) :
    fillings (furtherStrings (n + 1)) arguments =
      ⟨.char '-', none⟩ :: ⟨stringDirective, arguments.head?⟩ ::
        fillings (furtherStrings n) arguments.tail := by
  rw [furtherStrings, fillings_cons_of_not_consumes id,
    fillings_cons_of_consumes consumes_stringDirective]

theorem demand_furtherStrings (n : Nat) : demand (furtherStrings n) = n := by
  induction n with
  | zero => rfl
  | succ n ih =>
    rw [furtherStrings, demand_cons_of_not_consumes id,
      demand_cons_of_consumes consumes_stringDirective, ih]

theorem plain_furtherStrings (n : Nat) (arguments : List Parameter) :
    ∀ f ∈ fillings (furtherStrings n) arguments, f.Plain := by
  induction n generalizing arguments with
  | zero => simp [furtherStrings, fillings]
  | succ n ih =>
    rw [fillings_furtherStrings, List.forall_mem_cons, List.forall_mem_cons]
    exact ⟨⟨rfl, rfl⟩, ⟨rfl, rfl⟩, ih arguments.tail⟩

/-- A directive shows the text that it takes, or else itself. -/
theorem display_stringDirective (words : List String) :
    (Filling.mk stringDirective (words.map Parameter.text).head?).display =
      words.head?.getD "%s" := by
  cases words <;> rfl

theorem join_furtherStrings (n : Nat) (words : List String) :
    String.join ((fillings (furtherStrings n) (words.map .text)).map Filling.display) =
      String.join ((shownStrings n words).map ("-" ++ ·)) := by
  induction n generalizing words with
  | zero => simp [furtherStrings, fillings, shownStrings]
  | succ n ih =>
    have hhyphen : (Filling.mk (.char '-') none).display = "-" := rfl
    rw [fillings_furtherStrings, shownStrings_succ, List.map_cons, List.map_cons, List.map_cons,
      String.join_cons, String.join_cons, String.join_cons, display_stringDirective, hhyphen,
      ← List.map_tail, ih, String.append_assoc]

/-- Directives show nothing only if there is a single one and it takes an empty text. -/
theorem intercalate_shownStrings_eq_empty_iff (n : Nat) (words : List String) :
    "-".intercalate (shownStrings (n + 1) words) = "" ↔ n = 0 ∧ words.head? = some "" := by
  rw [shownStrings_succ, intercalate_cons_eq, String.append_eq_empty_iff]
  cases n with
  | zero => cases words <;> simp [shownStrings]
  | succ n => simp [shownStrings_succ]

end Template

namespace Formatted

/-- A template of strings shows the first texts, and those that it leaves are appended. -/
theorem text_strings (n : Nat) (words : List String) :
    (ofArguments (.text (Template.strings (n + 1)) :: words.map .text)).text =
      appendTexts ("-".intercalate (Template.shownStrings (n + 1) words))
        ((words.drop (n + 1)).map .text) := by
  have hfillings : Template.fillings (Template.scan (Template.strings (n + 1)).toList)
        (words.map .text) =
      ⟨Template.stringDirective, (words.map Parameter.text).head?⟩ ::
        Template.fillings (Template.furtherStrings n) (words.tail.map .text) := by
    rw [Template.scan_strings, Template.fillings_cons_of_consumes Template.consumes_stringDirective,
      List.map_tail]
  have hplain : ∀ f ∈ Template.fillings (Template.scan (Template.strings (n + 1)).toList)
      (words.map .text), f.Plain := by
    rw [hfillings, List.forall_mem_cons]
    exact ⟨⟨rfl, rfl⟩, Template.plain_furtherStrings n _⟩
  have hdemand : Template.demand (Template.scan (Template.strings (n + 1)).toList) = n + 1 := by
    rw [Template.scan_strings, Template.demand_cons_of_consumes Template.consumes_stringDirective,
      Template.demand_furtherStrings]
  rw [ofArguments_of_marked (Template.marked_strings n), expand_of_plain hplain, hfillings, hdemand,
    List.map_cons, String.join_cons, Template.display_stringDirective, Template.join_furtherStrings,
    Template.shownStrings_succ, intercalate_cons_eq, List.map_drop]

/-- Texts that are shown without a template have a space between any two. -/
theorem text_plain_texts (words : List String) :
    (plain (words.map .text)).text = " ".intercalate words := by
  have hdisplay : (words.map Parameter.text).map Parameter.display = words := by
    rw [List.map_map]
    exact List.map_id words
  unfold plain
  rw [hdisplay]

/-- Each `%s` of a template takes the next text, and shows itself when there are no more. The
    texts that are left follow after a space each, with one exception: where a single directive
    has taken an empty text, the spaces are missing up to the first text that is not empty.
    Without a template these spaces are there. -/
theorem strings_in_order {n : Nat} (hn : 1 ≤ n) (words : List String) :
    let text := (ofArguments (.text (Template.strings n) :: words.map .text)).text
    let shown := "-".intercalate (words.take n ++ List.replicate (n - words.length) "%s")
    let spaced := shown ++ String.join ((words.drop n).map (" " ++ ·))
    (text = spaced ↔ ¬ (n = 1 ∧ words.head? = some "" ∧ 2 ≤ words.length)) ∧
    (n = 1 → words.head? = some "" → text = " ".intercalate (words.dropWhile String.isEmpty)) ∧
    (n = 1 → words ≠ [] → (plain (words.map .text)).text = spaced) := by
  intro text shown spaced
  obtain ⟨m, rfl⟩ : ∃ m, n = m + 1 := ⟨n - 1, by omega⟩
  have htext : text = appendTexts shown ((words.drop (m + 1)).map .text) := text_strings m words
  have hempty : shown = "" ↔ m = 0 ∧ words.head? = some "" :=
    Template.intercalate_shownStrings_eq_empty_iff m words
  have hspaced : spaced = shown ++
      String.join (((words.drop (m + 1)).map Parameter.text).map fun p => " " ++ p.display) := by
    rw [List.map_map]
    rfl
  refine ⟨?_, ?_, ?_⟩
  · -- a space is missing only if nothing was shown and a text is left
    rw [htext, hspaced, appendTexts_eq_iff, ne_eq, hempty, List.map_eq_nil_iff,
      List.drop_eq_nil_iff]
    by_cases hhead : words.head? = some ""
    · simp only [hhead, and_true, true_and]
      omega
    · simp [hhead]
  · intro hm hhead
    obtain rfl : m = 0 := by omega
    have hshown : shown = "" := hempty.2 ⟨rfl, hhead⟩
    obtain ⟨rest, rfl⟩ : ∃ rest, words = "" :: rest := List.head?_eq_some_iff.1 hhead
    rw [htext, hshown, appendTexts_empty, List.map_map]
    show " ".intercalate ((rest.map id).dropWhile String.isEmpty) = _
    rw [List.map_id]
    rfl
  · intro hm hne
    obtain rfl : m = 0 := by omega
    obtain ⟨word, rest, rfl⟩ := List.exists_cons_of_ne_nil hne
    rw [text_plain_texts, intercalate_cons_eq]
    simp [spaced, shown]

/-- A single directive that takes an empty text, with one text left. -/
theorem strings_separator_missing :
    let words := ["", "a"]
    1 ≤ 1 ∧ (ofArguments (.text (Template.strings 1) :: words.map .text)).text = "a" ∧
      (ofArguments (.text (Template.strings 1) :: words.map .text)).text ≠
        (plain (words.map .text)).text := by
  intro words
  obtain ⟨hiff, hempty, hplain⟩ := strings_in_order (Nat.le_refl 1) words
  have htext := hempty rfl rfl
  refine ⟨Nat.le_refl 1, htext, ?_⟩
  rw [hplain rfl (by decide)]
  intro heq
  exact hiff.1 heq ⟨rfl, rfl, by decide⟩

end Formatted

end Console
