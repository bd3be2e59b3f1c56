import Console.Proofs.Message.Expansion
import Console.Proofs.Message.Numeral

/-! # Whole numbers in a template

    `%d` and `%i` show an argument that stands for a number as the digits before its point:

    - `Parameter.Denotes`: the value that an argument stands for, which for a text is that of the
      integer at its start,
    - `Numeral.number_whole`: integers below `2^53` are read as they are,
    - `Parameter.integerText_of_denotes`: what is shown of an argument,
    - `Formatted.text_whole_shown`: where it stands in the text of the template.
-/

namespace Console

/-- Says that an argument stands for a value where a whole number is shown. -/
inductive Parameter.Denotes : Parameter → ℚ → Prop where
  | number (x : Binary64) : Denotes (.number x) x.toRat
  | text {s : String} {n : Numeral}
      (leads : Leads Numeral.IsInteger (s.toList.dropWhile Unicode.blank.contains) n) :
      Denotes (.text s) n.toRat
  | negativeZero : Denotes (.literal .negativeZero) 0

/-! ### Integers that are read -/

theorem Numeral.toRat_of_isInteger {n : Numeral} (h : n.IsInteger) :
    n.toRat = if n.negative then -(n.digits : ℚ) else n.digits := by
  obtain ⟨hfraction, hexponent⟩ := h
  simp [toRat, power, hfraction, hexponent]

/-- An integer below `2^53` is read as it is. -/
theorem Numeral.number_whole {n : Numeral} (h : n.IsInteger) (hlt : |n.toRat| < 2 ^ 53) :
    ∃ x, n.number = .finite x ∧ x.toRat = n.toRat := by
  have hdigits : n.digits < 2 ^ 53 := by
    have habs : |n.toRat| = n.digits := by
      rw [toRat_of_isInteger h]
      split
      · rw [abs_neg, Nat.abs_cast]
      · rw [Nat.abs_cast]
    rw [habs] at hlt
    exact_mod_cast hlt
  obtain ⟨x, hx, hnegative, hmagnitude⟩ := Binary64.ofDecimal_whole n.negative hdigits
  have hnumber : n.number = Binary64.ofDecimal n.negative n.digits 0 := by
    simp [number, power, h.1, h.2]
  refine ⟨x, hnumber.trans hx, ?_⟩
  rw [toRat_of_isInteger h, Binary64.toRat, hnegative, hmagnitude]

/-! ### Whole numbers that are shown -/

/-- Of an argument that stands for a number the integer part is shown, behind a mark if that is
    below zero. -/
theorem Parameter.integerText_of_denotes {p : Parameter} {v : ℚ} (h : p.Denotes v)
    (hlt : |v| < 2 ^ 53) :
    p.integerText = (if wholePart v < 0 then "-" else "") ++ toString (wholePart v).natAbs := by
  cases h with
  | number x => exact x.text_truncate hlt
  | @text s n hleads =>
    obtain ⟨x, hx, hvalue⟩ := n.number_whole hleads.fits hlt
    have hread : leadingNumber? false s.toList = some (.finite x) := by
      rw [← hx]
      apply leadingNumber?_of_leads
      rw [Numeral.isPlain_false]
      exact hleads
    rw [← hvalue] at hlt ⊢
    simp only [integerText, hread]
    exact x.text_truncate hlt
  | negativeZero =>
    have hzero : wholePart 0 = 0 := by
      rw [wholePart_of_nonneg le_rfl, Int.floor_zero]
    rw [hzero]
    rfl

namespace Formatted

variable {template : String} {arguments : List Parameter} {before after : List Piece}
  {d : Directive} {p : Parameter}

/-- What a directive shows of the argument that it takes stands between what the pieces before
    it and those behind it show. -/
theorem text_of_directive (hpieces : Template.scan template.toList = before ++ .directive d :: after)
    (hd : d.Consumes) (hp : arguments[Template.demand before]? = some p) :
    let pieces := Template.scan template.toList
    let shown := (Template.fillings pieces arguments).map Filling.display
    (ofArguments (.text template :: arguments)).text =
      appendTexts (String.join (shown.take before.length) ++ d.showing p ++
          String.join (shown.drop (before.length + 1)))
        (arguments.drop (Template.demand pieces)) := by
  intro pieces shown
  have htemplate : Template.isTemplate template := by
    unfold Template.isTemplate
    rw [hpieces]
    simp
  have hfilling : shown[before.length]? = some (d.showing p) := by
    have hconsumes : (Piece.directive d).Consumes := hd
    have hplace := Template.getElem?_fillings before (.directive d) after arguments
    rw [if_pos hconsumes, hp, ← hpieces] at hplace
    rw [List.getElem?_map, hplace]
    rfl
  have hsplit : shown = shown.take before.length ++ d.showing p :: shown.drop (before.length + 1) := by
    obtain ⟨hlt, hget⟩ := List.getElem?_eq_some_iff.1 hfilling
    conv_lhs => rw [← List.take_append_drop before.length shown, List.drop_eq_getElem_cons hlt, hget]
  obtain ⟨parts, hlaid, -, -, htext⟩ := exists_parts template arguments
  have hjoin : String.join ((parts.map Prod.fst).map Parameter.display) = String.join shown :=
    hlaid.shows.text.symm
  rw [ofArguments, if_pos htemplate, htext, hjoin]
  conv_lhs => rw [hsplit, String.join_append, String.join_cons, ← String.append_assoc]

/-- Where `%d` or `%i` takes an argument that stands for a number below `2^53`, the text has the
    digits of its integer part, behind a mark if that is below zero. -/
theorem text_whole_shown {letter : Char} {v : ℚ}
    (hpieces : Template.scan template.toList = before ++ .directive d :: after)
    (hd : d.Consumes) (hletter : d.conversion = .integer letter)
    (hp : arguments[Template.demand before]? = some p) (hv : p.Denotes v) (hlt : |v| < 2 ^ 53) :
    let pieces := Template.scan template.toList
    let shown := (Template.fillings pieces arguments).map Filling.display
    (ofArguments (.text template :: arguments)).text =
      appendTexts (String.join (shown.take before.length) ++
          ((if wholePart v < 0 then "-" else "") ++ toString (wholePart v).natAbs) ++
          String.join (shown.drop (before.length + 1)))
        (arguments.drop (Template.demand pieces)) := by
  intro pieces shown
  have hshowing : d.showing p =
      (if wholePart v < 0 then "-" else "") ++ toString (wholePart v).natAbs := by
    rw [Directive.showing, hletter]
    exact Parameter.integerText_of_denotes hv hlt
  rw [← hshowing]
  exact text_of_directive hpieces hd hp

/-- Minus seven, with zeros in front. -/
def minusSeven : Numeral :=
  .integer (some '-') ['0', '0', '7'] (fun _ h => .inr (Option.some.inj h).symm)
    (List.all_eq_true.1 rfl) (List.cons_ne_nil _ _)

/-- A text with minus seven behind a number that is below zero only behind its point. -/
theorem text_minusSeven_shown :
    let arguments : List Parameter :=
      [.number ((Binary64.ofDecimal true 5 (-1)).getD Binary64.zero), .text "\t-007px"]
    (Parameter.text "\t-007px").Denotes (-7) ∧
      (ofArguments (.text "%d, %i" :: arguments)).text = "0, -7" := by
  intro arguments
  have htext : "\t-007px".toList.dropWhile Unicode.blank.contains =
      minusSeven.source ++ 'p' :: ['x'] := by decide +kernel
  have hinteger : minusSeven.IsInteger := ⟨rfl, rfl⟩
  have hvalue : minusSeven.toRat = -7 := by
    rw [Numeral.toRat_of_isInteger hinteger]
    rfl
  have hdenotes : (Parameter.text "\t-007px").Denotes (-7) := by
    rw [← hvalue]
    apply Parameter.Denotes.text
    rw [htext]
    exact leads_of_ends hinteger (fun m hm => hm.2) (by decide)
  have hpieces : Template.scan "%d, %i".toList =
      [.directive ⟨none, .integer 'd'⟩, .char ',', .char ' '] ++ .directive ⟨none, .integer 'i'⟩ :: [] := by
    decide +kernel
  have htaken : arguments[Template.demand [.directive ⟨none, .integer 'd'⟩, .char ',', .char ' ']]? =
      some (.text "\t-007px") := rfl
  have hwhole : wholePart (-7) = -7 := by
    rw [wholePart_neg (by norm_num)]
    norm_num
  have hshown := text_whole_shown hpieces (by decide) rfl htaken hdenotes (by norm_num)
  rw [hwhole] at hshown
  refine ⟨hdenotes, hshown.trans ?_⟩
  decide +kernel

end Formatted

end Console
