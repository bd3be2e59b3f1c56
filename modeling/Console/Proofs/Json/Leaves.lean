import Console.Json.Parser
import Console.Json.Printer

/-! # Strings and numbers in JSON text

    A written string is read back whatever characters it has (`stringBody?_stringText`). A
    written number is a decimal numeral (`Number.numeral_text`), and a numeral is read to its
    end, if what follows does not go on with it (`Number.Numeral.read?_append`). Neither has
    a line break in it.
-/

namespace Console

namespace Json

/-! ### Strings -/

/-- The digits of a control character spell its code. -/
theorem codeUnit?_hexDigit : ∀ n : Fin 32,
    codeUnit? '0' '0' (hexDigit (n.val / 16)) (hexDigit (n.val % 16)) = some n.val := by
  decide

/-- An escaped character is read as the character. -/
theorem stringBody?_escapedChar (seen : List Char) (c : Char) (rest : List Char) :
    stringBody? seen ((escapedChar c).toList ++ rest) = stringBody? (c :: seen) rest := by
  unfold escapedChar
  split
  case h_8 hquote hbackslash _ _ _ _ _ =>
    split
    · next hcontrol =>
      have hunit := codeUnit?_hexDigit ⟨c.toNat, hcontrol⟩
      have hhigh : ¬ (0xD800 ≤ c.toNat ∧ c.toNat < 0xDC00) := by omega
      have hlow : ¬ (0xDC00 ≤ c.toNat ∧ c.toNat < 0xE000) := by omega
      have htext : ("\\u00" ++ (hexDigit (c.toNat / 16)).toString ++
          (hexDigit (c.toNat % 16)).toString).toList ++ rest =
            '\\' :: 'u' :: '0' :: '0' :: hexDigit (c.toNat / 16) :: hexDigit (c.toNat % 16) :: rest := by
        simp
      rw [htext, stringBody?]
      simp only at hunit
      simp only [hunit, if_neg hhigh, if_neg hlow, Char.ofNat_toNat]
    · next hplain =>
      have htext : c.toString.toList ++ rest = c :: rest := by simp
      rw [htext, stringBody?, if_neg hplain]
      · exact hquote
      · exact fun _ _ _ _ _ h => absurd h hbackslash
      · exact fun _ _ h => absurd h hbackslash
  all_goals rfl

theorem toList_stringText (s : String) : (stringText s).toList =
    '"' :: (s.toList.flatMap (fun c => (escapedChar c).toList) ++ ['"']) := by
  simp [stringText, List.flatMap_map]

theorem stringBody?_flatMap (seen cs rest : List Char) :
    stringBody? seen (cs.flatMap (fun c => (escapedChar c).toList) ++ '"' :: rest) =
      some (String.ofList (seen.reverse ++ cs), rest) := by
  induction cs generalizing seen with
  | nil => simp [stringBody?]
  | cons c cs ih =>
    rw [List.flatMap_cons, List.append_assoc, stringBody?_escapedChar, ih]
    simp

/-- A written string is read back. -/
theorem stringBody?_stringText (s : String) : ∃ body, (stringText s).toList = '"' :: body ∧
    ∀ rest, stringBody? [] (body ++ rest) = some (s, rest) := by
  refine ⟨_, toList_stringText s, fun rest => ?_⟩
  rw [List.append_assoc, List.singleton_append, stringBody?_flatMap]
  simp

theorem lineBreak_notMem_escapedChar (c : Char) : '\n' ∉ (escapedChar c).toList := by
  unfold escapedChar
  split
  case h_8 =>
    split
    · next hcontrol =>
      have hdigits : ∀ n : Fin 32, '\n' ≠ hexDigit (n.val / 16) ∧ '\n' ≠ hexDigit (n.val % 16) := by
        decide
      obtain ⟨hhigh, hlow⟩ := hdigits ⟨c.toNat, hcontrol⟩
      simp [hhigh, hlow]
    · next hplain =>
      have hne : '\n' ≠ c := by
        rintro rfl
        exact hplain (by decide)
      simp [hne]
  all_goals decide

theorem lineBreak_notMem_stringText (s : String) : '\n' ∉ (stringText s).toList := by
  rw [toList_stringText]
  simp [lineBreak_notMem_escapedChar]

end Json

/-- A run of characters ends before the first that is none of them. -/
theorem takeWhile_append_of_head {p : Char → Bool} {xs rest : List Char} (hxs : ∀ c ∈ xs, p c)
    (hrest : ∀ c ∈ rest.head?, p c = false) :
    (xs ++ rest).takeWhile p = xs ∧ (xs ++ rest).dropWhile p = rest := by
  rw [List.takeWhile_append_of_pos hxs, List.dropWhile_append_of_pos hxs]
  cases rest with
  | nil => simp
  | cons c rest => simp [hrest c rfl]

namespace Number

/-! ### Numerals -/

/-- Says that a text is one decimal digit or more. -/
def Digits (text : List Char) : Prop := text ≠ [] ∧ ∀ c ∈ text, c.isDigit

/-- Says that a text is nothing, or a point with digits. -/
def Fraction (text : List Char) : Prop := text = [] ∨ ∃ digits, Digits digits ∧ text = '.' :: digits

/-- Says that a text is nothing, or an exponent with a sign. -/
def Exponent (text : List Char) : Prop :=
  text = [] ∨ ∃ sign digits, (sign = '+' ∨ sign = '-') ∧ Digits digits ∧ text = 'e' :: sign :: digits

/-- Says that a text is a decimal numeral. -/
def Numeral (text : List Char) : Prop :=
  ∃ sign whole fraction exponent, (sign = [] ∨ sign = ['-']) ∧ Digits whole ∧ Fraction fraction ∧
    Exponent exponent ∧ text = sign ++ (whole ++ (fraction ++ exponent))

/-- Says that a text does not go on with a numeral. -/
def Stops (text : List Char) : Prop :=
  ∀ c ∈ text.head?, c.isDigit = false ∧ c ≠ '.' ∧ c ≠ 'e' ∧ c ≠ 'E'

theorem stops_nil : Stops [] := fun _ h => nomatch h

section
variable {digits rest : List Char}

/-- Digits are taken to their end. -/
theorem Digits.takeWhile_append (h : Digits digits) (hrest : ∀ c ∈ rest.head?, c.isDigit = false) :
    (digits ++ rest).takeWhile Char.isDigit = digits := (takeWhile_append_of_head h.2 hrest).1

theorem Digits.dropWhile_append (h : Digits digits) (hrest : ∀ c ∈ rest.head?, c.isDigit = false) :
    (digits ++ rest).dropWhile Char.isDigit = rest := (takeWhile_append_of_head h.2 hrest).2

theorem Digits.isEmpty_eq (h : Digits digits) : digits.isEmpty = false := by
  simpa using h.1

end

/-! ### Reading numerals -/

theorem Fraction.fraction?_append {fraction : List Char} (h : Fraction fraction) :
    ∃ digits, ∀ rest, (∀ c ∈ rest.head?, c.isDigit = false ∧ c ≠ '.') →
      fraction? (fraction ++ rest) = some (digits, rest) := by
  rcases h with rfl | ⟨digits, hdigits, rfl⟩
  · refine ⟨none, fun rest hrest => ?_⟩
    rw [List.nil_append, fraction?]
    rintro rest rfl
    exact (hrest '.' rfl).2 rfl
  · refine ⟨some digits, fun rest hrest => ?_⟩
    have hstop : ∀ c ∈ rest.head?, c.isDigit = false := fun c hc => (hrest c hc).1
    rw [List.cons_append, fraction?]
    simp only [hdigits.takeWhile_append hstop, hdigits.dropWhile_append hstop, hdigits.isEmpty_eq,
      Bool.false_eq_true, if_false]

theorem Exponent.exponent?_append {exponent : List Char} (h : Exponent exponent) :
    ∃ power, ∀ rest, (∀ c ∈ rest.head?, c.isDigit = false ∧ c ≠ 'e' ∧ c ≠ 'E') →
      exponent? (exponent ++ rest) = some (power, rest) := by
  rcases h with rfl | ⟨sign, digits, hsign, hdigits, rfl⟩
  · refine ⟨none, fun rest hrest => ?_⟩
    cases rest with
    | nil => rfl
    | cons c rest =>
      obtain ⟨-, hlower, hupper⟩ := hrest c rfl
      simp [exponent?, hlower, hupper]
  · rcases hsign with rfl | rfl
    · refine ⟨some (ofDigits digits), fun rest hrest => ?_⟩
      have hstop : ∀ c ∈ rest.head?, c.isDigit = false := fun c hc => (hrest c hc).1
      simp [exponent?, hdigits.takeWhile_append hstop, hdigits.dropWhile_append hstop, hdigits.1]
    · refine ⟨some (-(ofDigits digits : Int)), fun rest hrest => ?_⟩
      have hstop : ∀ c ∈ rest.head?, c.isDigit = false := fun c hc => (hrest c hc).1
      simp [exponent?, hdigits.takeWhile_append hstop, hdigits.dropWhile_append hstop, hdigits.1]

/-- Reads a number after its sign. -/
def readUnsigned? (negative : Bool) (text : List Char) : Option (Number × List Char) :=
  let whole := text.takeWhile Char.isDigit
  if whole.isEmpty || (whole.head? == some '0' && whole.length != 1) then none
  else do
    let (fraction, rest) ← fraction? (text.dropWhile Char.isDigit)
    let (exponent, rest) ← exponent? rest
    let value ← ofParts? negative whole fraction exponent
    return (value, rest)

theorem read?_hyphen (text : List Char) : read? ('-' :: text) = readUnsigned? true text := rfl

theorem read?_of_ne_hyphen {c : Char} (h : c ≠ '-') (rest : List Char) :
    read? (c :: rest) = readUnsigned? false (c :: rest) := by
  unfold read?
  split
  next negative text hsign =>
    split at hsign
    · next heq => exact absurd (List.cons.inj heq).1 h
    · cases hsign
      rfl

theorem read?_of_isDigit {c : Char} (h : c.isDigit) (rest : List Char) :
    read? (c :: rest) = readUnsigned? false (c :: rest) := by
  have hc : c ≠ '-' := by
    rintro rfl
    exact absurd h (by decide)
  exact read?_of_ne_hyphen hc rest

theorem exists_readUnsigned?_append (negative : Bool) {whole fraction exponent : List Char}
    (hwhole : Digits whole) (hfraction : Fraction fraction) (hexponent : Exponent exponent) :
    ∃ value : Option Number, ∀ rest, Stops rest →
      readUnsigned? negative (whole ++ (fraction ++ (exponent ++ rest))) = value.map (·, rest) := by
  obtain ⟨digits, hdigits⟩ := hfraction.fraction?_append
  obtain ⟨power, hpower⟩ := hexponent.exponent?_append
  refine ⟨if whole.isEmpty || (whole.head? == some '0' && whole.length != 1) then none
    else ofParts? negative whole digits power, fun rest hrest => ?_⟩
  -- what comes behind the exponent, the fraction and the whole part ends each of them
  have hafter : ∀ c ∈ (exponent ++ rest).head?, c.isDigit = false ∧ c ≠ '.' := by
    rcases hexponent with rfl | ⟨_, _, _, _, rfl⟩
    · exact fun c hc => ⟨(hrest c hc).1, (hrest c hc).2.1⟩
    · rintro c hc
      cases hc
      decide
  have hstop : ∀ c ∈ (fraction ++ (exponent ++ rest)).head?, c.isDigit = false := by
    rcases hfraction with rfl | ⟨_, _, rfl⟩
    · exact fun c hc => (hafter c hc).1
    · rintro c hc
      cases hc
      decide
  have hend := hpower rest fun c hc => ⟨(hrest c hc).1, (hrest c hc).2.2⟩
  simp only [readUnsigned?, hwhole.takeWhile_append hstop, hwhole.dropWhile_append hstop,
    hdigits _ hafter, hend, Option.bind_eq_bind, Option.bind_some]
  split
  · rfl
  · cases ofParts? negative whole digits power <;> rfl

namespace Numeral

variable {text rest : List Char}

theorem exists_read?_append (h : Numeral text) :
    ∃ value : Option Number, ∀ rest, Stops rest → read? (text ++ rest) = value.map (·, rest) := by
  obtain ⟨sign, whole, fraction, exponent, hsign, hwhole, hfraction, hexponent, rfl⟩ := h
  rcases hsign with rfl | rfl
  · obtain ⟨value, hvalue⟩ := exists_readUnsigned?_append false hwhole hfraction hexponent
    obtain ⟨c, others, rfl⟩ := List.exists_cons_of_ne_nil hwhole.1
    refine ⟨value, fun rest hrest => ?_⟩
    have hread := read?_of_isDigit (hwhole.2 c List.mem_cons_self)
      (others ++ (fraction ++ (exponent ++ rest)))
    simpa only [List.nil_append, List.append_assoc, List.cons_append] using
      hread.trans (hvalue rest hrest)
  · obtain ⟨value, hvalue⟩ := exists_readUnsigned?_append true hwhole hfraction hexponent
    refine ⟨value, fun rest hrest => ?_⟩
    simpa only [List.append_assoc, List.cons_append, List.nil_append] using
      (read?_hyphen _).trans (hvalue rest hrest)

/-- A numeral is read to its end, as it is read alone. -/
theorem read?_append (h : Numeral text) (hrest : Stops rest) :
    read? (text ++ rest) = ((read? text).map Prod.fst).map (·, rest) := by
  obtain ⟨value, hvalue⟩ := h.exists_read?_append
  have halone := hvalue [] stops_nil
  rw [List.append_nil] at halone
  rw [hvalue rest hrest, halone]
  cases value <;> rfl

/-- A numeral begins with a hyphen or a digit. -/
theorem exists_cons (h : Numeral text) :
    ∃ c rest, text = c :: rest ∧ (c = '-' ∨ c.isDigit) := by
  obtain ⟨sign, whole, fraction, exponent, hsign, hwhole, -, -, rfl⟩ := h
  rcases hsign with rfl | rfl
  · obtain ⟨c, others, rfl⟩ := List.exists_cons_of_ne_nil hwhole.1
    exact ⟨c, _, rfl, .inr (hwhole.2 c List.mem_cons_self)⟩
  · exact ⟨'-', _, rfl, .inl rfl⟩

theorem lineBreak_notMem (h : Numeral text) : '\n' ∉ text := by
  obtain ⟨sign, whole, fraction, exponent, hsign, hwhole, hfraction, hexponent, rfl⟩ := h
  have hdigits : ∀ {digits}, Digits digits → '\n' ∉ digits := by
    intro digits hdigits hmem
    exact absurd (hdigits.2 '\n' hmem) (by decide)
  simp only [List.mem_append, not_or]
  refine ⟨?_, hdigits hwhole, ?_, ?_⟩
  · rcases hsign with rfl | rfl <;> decide
  · rcases hfraction with rfl | ⟨digits, h, rfl⟩
    · exact List.not_mem_nil
    · simp [hdigits h]
  · rcases hexponent with rfl | ⟨sign, digits, hsign, h, rfl⟩
    · exact List.not_mem_nil
    · rcases hsign with rfl | rfl <;> simp [hdigits h]

end Numeral

/-! ### Written numbers -/

theorem digits_toString (n : Nat) : Digits (toString n).toList := by
  rw [Nat.toString_eq_ofList_toDigits, String.toList_ofList]
  exact ⟨Nat.toDigits_ne_nil, fun c hc => Nat.isDigit_of_mem_toDigits (by decide) (by decide) hc⟩

theorem toList_pushn (c : Char) (n : Nat) : ("".pushn c n).toList = List.replicate n c := by
  induction n with
  | zero => rfl
  | succ n ih =>
    have hstep : "".pushn c (n + 1) = ("".pushn c n).push c := rfl
    rw [hstep, String.toList_push, ih, List.replicate_succ']

theorem toList_zeros (n : Nat) : (zeros n).toList = List.replicate n '0' := toList_pushn '0' n

theorem Digits.append_zeros {digits : List Char} (h : Digits digits) (n : Nat) :
    Digits (digits ++ List.replicate n '0') := by
  refine ⟨by simp [h.1], fun c hc => ?_⟩
  rcases List.mem_append.1 hc with hc | hc
  · exact h.2 c hc
  · rw [List.eq_of_mem_replicate hc]
    decide

/-- A positional decimal is digits, and a fraction if it is not whole. -/
theorem exists_positional (x : Decimal) : ∃ whole fraction, Digits whole ∧ Fraction fraction ∧
    x.positional.toList = whole ++ fraction ∧ (0 ≤ x.exponent → fraction = []) := by
  have htext := digits_toString x.digits
  unfold Decimal.positional
  simp only
  split
  · exact ⟨_, [], htext.append_zeros x.exponent.toNat, .inl rfl, by simp [toList_zeros],
      fun _ => rfl⟩
  · next hneg =>
    split
    · next hplaces =>
      rw [← String.length_toList] at hplaces ⊢
      refine ⟨(toString x.digits).toList.take ((toString x.digits).toList.length - (-x.exponent).toNat),
        '.' :: (toString x.digits).toList.drop
          ((toString x.digits).toList.length - (-x.exponent).toNat),
        ⟨?_, fun c hc => htext.2 c (List.mem_of_mem_take hc)⟩,
        .inr ⟨_, ⟨?_, fun c hc => htext.2 c (List.mem_of_mem_drop hc)⟩, rfl⟩, by simp,
        fun h => absurd h hneg⟩
      · exact List.ne_nil_of_length_pos (by rw [List.length_take]; omega)
      · exact List.ne_nil_of_length_pos (by rw [List.length_drop]; omega)
    · refine ⟨['0'], '.' :: (List.replicate ((-x.exponent).toNat - (toString x.digits).length) '0' ++
        (toString x.digits).toList), ⟨by simp, by simp⟩, .inr ⟨_, ?_, rfl⟩, by simp [toList_zeros],
        fun h => absurd h hneg⟩
      refine ⟨List.append_ne_nil_of_right_ne_nil _ htext.1, fun c hc => ?_⟩
      rcases List.mem_append.1 hc with hc | hc
      · rw [List.eq_of_mem_replicate hc]
        decide
      · exact htext.2 c hc

theorem exists_scientific (x : Decimal) : ∃ whole fraction exponent, Digits whole ∧
    Fraction fraction ∧ Exponent exponent ∧
      x.scientific.toList = whole ++ (fraction ++ exponent) := by
  have htext := digits_toString x.digits
  have hpower := digits_toString x.magnitude.natAbs
  have hexponent : Exponent ("e" ++ (if x.magnitude < 0 then "-" else "+") ++
      toString x.magnitude.natAbs).toList := by
    refine .inr ⟨if x.magnitude < 0 then '-' else '+', _, ?_, hpower, ?_⟩
    · split <;> simp
    · split <;> simp
  unfold Decimal.scientific
  simp only
  split
  · next hnil => exact absurd hnil htext.1
  · next d hsingle =>
    rw [hsingle] at htext
    exact ⟨[d], [], _, htext, .inl rfl, hexponent, by simp⟩
  · next d others hrest hmany =>
    rw [hmany] at htext
    have hothers : Digits others :=
      ⟨fun h => hrest h,
        fun c hc => htext.2 c (List.mem_cons_of_mem _ hc)⟩
    exact ⟨[d], '.' :: others, _, ⟨by simp, fun c hc => htext.2 c (by simp_all)⟩,
      .inr ⟨others, hothers, rfl⟩, hexponent, by simp⟩

/-- A binary64 number is written as a numeral. -/
theorem numeral_json (x : Binary64) : Numeral (x.text .json).toList := by
  have hsign : x.sign.toList = [] ∨ x.sign.toList = ['-'] := by
    unfold Binary64.sign
    split <;> simp
  unfold Binary64.text
  simp only [String.toList_append]
  split
  · obtain ⟨whole, fraction, hwhole, hfraction, htext, hpoint⟩ :=
      exists_positional (x.shortest Layout.json.tie)
    split
    · next hexponent =>
      have hnil := hpoint (of_decide_eq_true (Bool.and_eq_true_iff.1 hexponent).2)
      refine ⟨_, whole, ['.', '0'], [], hsign, hwhole, .inr ⟨['0'], ⟨by simp, by simp⟩, rfl⟩,
        .inl rfl, ?_⟩
      simp [htext, hnil]
    · exact ⟨_, whole, fraction, [], hsign, hwhole, hfraction, .inl rfl, by simp [htext]⟩
  · obtain ⟨whole, fraction, exponent, hwhole, hfraction, hexponent, htext⟩ :=
      exists_scientific (x.shortest Layout.json.tie)
    exact ⟨_, whole, fraction, exponent, hsign, hwhole, hfraction, hexponent, by rw [htext]⟩

/-- A number is written as a numeral. -/
theorem numeral_text (n : Number) : Numeral n.text.toList := by
  cases n with
  | real x => exact numeral_json x
  | integer value _ =>
    cases value with
    | ofNat m =>
      refine ⟨[], _, [], [], .inl rfl, digits_toString m, .inl rfl, .inl rfl, ?_⟩
      have htext : Number.text (.integer (Int.ofNat m) ‹_›) = toString m := rfl
      rw [htext]
      simp
    | negSucc m =>
      refine ⟨['-'], _, [], [], .inr rfl, digits_toString (m + 1), .inl rfl, .inl rfl, ?_⟩
      have htext : Number.text (.integer (Int.negSucc m) ‹_›) = "-" ++ toString (m + 1) := rfl
      rw [htext]
      simp

end Number

end Console
