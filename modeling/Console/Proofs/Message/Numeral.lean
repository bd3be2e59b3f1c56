import Console.Message.Formatted
import Console.Proofs.Number.Decimal

/-! # The number at the start of a text

    Directives for numbers read the number at the start of a text. `Numeral` is how a number can
    be written there: an optional sign, digits with an optional point and digits behind it, or a
    point with digits, and an optional exponent. Of the numerals that a text begins with, the
    longest counts (`Leads`):

    - `Numeral.number_error`: the number of a numeral is the one next to its value,
    - `leadingNumber?_of_leads`: what is read is the longest numeral without an exponent,
    - `Leads.mantissa`: that is the longest of all numerals up to its exponent,
    - `numbers_at_start`: integers are read to their end, and numbers up to their exponent, which
      is read over; that makes another number unless the exponent is zero or too large or small
      to matter.
-/

namespace Console

/-! ### Numerals -/

/-- An exponent as it is written. -/
structure Exponent where
  letter : Char
  sign : Option Char
  digits : List Char
  letter_eq : letter = 'e' ∨ letter = 'E'
  sign_eq : ∀ c ∈ sign, c = '+' ∨ c = '-'
  isDigit : ∀ c ∈ digits, c.isDigit
  ne_nil : digits ≠ []

/-- Digits stay digits with one more. -/
theorem isDigit_append_singleton {digits : List Char} {c : Char} (hdigits : ∀ d ∈ digits, d.isDigit)
    (hc : c.isDigit) : ∀ d ∈ digits ++ [c], d.isDigit := by
  intro d hd
  rcases List.mem_append.1 hd with hd | hd
  · exact hdigits d hd
  · rw [List.mem_singleton.1 hd]
    exact hc

/-- A number as it is written. -/
structure Numeral where
  sign : Option Char
  whole : List Char
  /-- The digits behind the point, if there is one. -/
  fraction : Option (List Char)
  exponent : Option Exponent
  sign_eq : ∀ c ∈ sign, c = '+' ∨ c = '-'
  isDigit_whole : ∀ c ∈ whole, c.isDigit
  isDigit_fraction : ∀ digits ∈ fraction, ∀ c ∈ digits, c.isDigit
  /-- There is a digit before the point or behind it. -/
  ne_nil : whole ++ fraction.getD [] ≠ []

/-- The characters of an exponent. -/
def Exponent.source (e : Exponent) : List Char := e.letter :: (e.sign.toList ++ e.digits)

/-- The power of ten that an exponent stands for. -/
def Exponent.value (e : Exponent) : Int :=
  let digits : Nat := Nat.ofDigitChars 10 e.digits 0
  if e.sign = some '-' then -(digits : Int) else digits

namespace Numeral

/-- The characters of a numeral. -/
def source (n : Numeral) : List Char :=
  n.sign.toList ++ (n.whole ++ (n.fraction.elim [] ('.' :: ·) ++ n.exponent.elim [] Exponent.source))

/-- Whether the numeral has the sign of negative numbers. -/
def negative (n : Numeral) : Bool := n.sign == some '-'

/-- The number that the digits before and behind the point spell together. -/
def digits (n : Numeral) : Nat := Nat.ofDigitChars 10 (n.whole ++ n.fraction.getD []) 0

/-- The power of ten that the exponent stands for, and one without it. -/
def power (n : Numeral) : Int := n.exponent.elim 0 Exponent.value

/-- The number nearest to the value of the numeral: its digits, scaled by its exponent and by
    the places behind the point. -/
def number (n : Numeral) : Extended :=
  Binary64.ofDecimal n.negative n.digits (n.power - (n.fraction.getD []).length)

/-- The value of a numeral. -/
def toRat (n : Numeral) : ℚ :=
  let magnitude : ℚ := n.digits * 10 ^ (n.power - (n.fraction.getD []).length)
  if n.negative then -magnitude else magnitude

/-- The numerals of integers. -/
def IsInteger (n : Numeral) : Prop := n.fraction = none ∧ n.exponent = none

/-- The numerals without an exponent, and without a point unless they are `fractional`. -/
def IsPlain (fractional : Bool) (n : Numeral) : Prop :=
  n.exponent = none ∧ (fractional = false → n.fraction = none)

/-- Digits with a sign. -/
def integer (sign : Option Char) (digits : List Char) (hsign : ∀ c ∈ sign, c = '+' ∨ c = '-')
    (hdigits : ∀ c ∈ digits, c.isDigit) (hne : digits ≠ []) : Numeral where
  sign := sign
  whole := digits
  fraction := none
  exponent := none
  sign_eq := hsign
  isDigit_whole := hdigits
  isDigit_fraction := nofun
  ne_nil := fun hnil => hne (List.append_eq_nil_iff.1 hnil).1

/-- The numeral up to its exponent. -/
def mantissa (n : Numeral) : Numeral := { n with exponent := none }

/-- The numeral with one digit more before the point. -/
def appendWhole (n : Numeral) {c : Char} (hc : c.isDigit) : Numeral :=
  { n with
    whole := n.whole ++ [c]
    isDigit_whole := isDigit_append_singleton n.isDigit_whole hc
    ne_nil := fun hnil => List.append_ne_nil_of_right_ne_nil _ (List.cons_ne_nil c [])
      (List.append_eq_nil_iff.1 hnil).1 }

/-- The numeral with a point and these digits behind it. -/
def withFraction (n : Numeral) (digits : List Char) (hdigits : ∀ c ∈ digits, c.isDigit)
    (hne : n.whole ++ digits ≠ []) : Numeral :=
  { n with
    fraction := some digits
    isDigit_fraction := fun _ h => Option.some.inj h ▸ hdigits
    ne_nil := hne }

theorem isPlain_false : IsPlain false = IsInteger := by
  funext n
  apply propext
  constructor
  · rintro ⟨hexponent, hfraction⟩
    exact ⟨hfraction rfl, hexponent⟩
  · rintro ⟨hfraction, hexponent⟩
    exact ⟨hexponent, fun _ => hfraction⟩

theorem isPlain_mantissa (n : Numeral) : n.mantissa.IsPlain true := ⟨rfl, nofun⟩

/-- The number of a numeral is half a unit of its last place away from the value at most. -/
theorem number_error {n : Numeral} {x : Binary64} (h : n.number = .finite x) :
    |n.toRat - x.toRat| ≤ 2 ^ x.exponent / 2 := by
  obtain ⟨hnegative, herror⟩ := Binary64.nearest_error (Binary64.tenTo_pos _) h
  rw [Binary64.decimal_ratio] at herror
  unfold toRat Binary64.toRat
  rw [hnegative]
  by_cases hsign : n.negative
  · rw [if_pos hsign, if_pos hsign, neg_sub_neg, abs_sub_comm]
    exact herror
  · rw [if_neg hsign, if_neg hsign]
    exact herror

theorem source_eq (n : Numeral) :
    n.source = n.mantissa.source ++ n.exponent.elim [] Exponent.source := by
  simp [source, mantissa]

theorem mantissa_prefix (n : Numeral) : n.mantissa.source <+: n.source := by
  rw [n.source_eq]
  exact List.prefix_append _ _

/-- Behind the sign of a numeral there is a digit or a point, and no other sign. -/
theorem not_sign_of_head (n : Numeral) (after : List Char) :
    ∀ c ∈ (n.whole ++ (n.fraction.elim [] ('.' :: ·) ++ after)).head?, c ≠ '+' ∧ c ≠ '-' := by
  intro c hc
  cases hwhole : n.whole with
  | cons d others =>
    rw [hwhole] at hc
    have heq : d = c := Option.some.inj hc
    have hdigit : c.isDigit := n.isDigit_whole c (by simp [hwhole, heq])
    constructor
    · rintro rfl
      exact absurd hdigit (by decide)
    · rintro rfl
      exact absurd hdigit (by decide)
  | nil =>
    cases hfraction : n.fraction with
    | none => exact absurd (by simp [hwhole, hfraction]) n.ne_nil
    | some digits =>
      rw [hwhole, hfraction] at hc
      have heq : '.' = c := Option.some.inj hc
      rw [← heq]
      exact ⟨by decide, by decide⟩

/-- A numeral without an exponent is a sign, digits and a point. -/
theorem of_mem_source {n : Numeral} (h : n.exponent = none) {c : Char} (hc : c ∈ n.source) :
    c.isDigit ∨ c = '+' ∨ c = '-' ∨ c = '.' := by
  rw [source, h] at hc
  rcases List.mem_append.1 hc with hc | hc
  · have hsign := n.sign_eq c (Option.mem_toList.1 hc)
    tauto
  rcases List.mem_append.1 hc with hc | hc
  · exact .inl (n.isDigit_whole c hc)
  · cases hfraction : n.fraction with
    | none =>
      rw [hfraction] at hc
      exact absurd hc List.not_mem_nil
    | some digits =>
      simp only [hfraction, Option.elim_some, Option.elim_none, List.append_nil, List.mem_cons] at hc
      rcases hc with rfl | hc
      · exact .inr (.inr (.inr rfl))
      · exact .inl (n.isDigit_fraction digits hfraction c hc)

end Numeral

/-- Says that a numeral is the longest of a kind that a text begins with. -/
structure Leads (kind : Numeral → Prop) (text : List Char) (n : Numeral) : Prop where
  fits : kind n
  starts : n.source <+: text
  longest : ∀ m, kind m → m.source <+: text → m.source.length ≤ n.source.length

section leads

variable {kind : Numeral → Prop} {text after : List Char} {n : Numeral} {c : Char}

/-- Of the numerals that a text begins with, one is the longest. -/
theorem exists_leads (h : ∃ n, kind n ∧ n.source <+: text) : ∃ n, Leads kind text n := by
  classical
  let Reached (k : Nat) : Prop := ∃ n, kind n ∧ n.source <+: text ∧ n.source.length = k
  have hbound : ∀ {m : Numeral}, m.source <+: text → m.source.length ≤ text.length :=
    fun hm => hm.length_le
  obtain ⟨n, hn, hstart⟩ := h
  obtain ⟨best, hbest, hstarts, hlength⟩ : Reached (Nat.findGreatest Reached text.length) :=
    Nat.findGreatest_spec (hbound hstart) ⟨n, hn, hstart, rfl⟩
  refine ⟨best, hbest, hstarts, fun m hm hmstart => ?_⟩
  rw [hlength]
  exact Nat.le_findGreatest (hbound hmstart) ⟨m, hm, hmstart, rfl⟩

/-- The longest numeral cannot be continued by the next character. -/
theorem Leads.not_continued (h : Leads kind (n.source ++ c :: after) n) {m : Numeral}
    (hm : m.source = n.source ++ [c]) : ¬ kind m := by
  intro hkind
  have hstart : m.source <+: n.source ++ c :: after := by
    rw [hm]
    exact ⟨after, by simp⟩
  have hlength := h.longest m hkind hstart
  rw [hm, List.length_append, List.length_singleton] at hlength
  omega

/-- A numeral is the longest without an exponent if the character behind it is in none. -/
theorem leads_of_ends (hn : kind n) (hkind : ∀ m, kind m → m.exponent = none)
    (hc : ¬ (c.isDigit ∨ c = '+' ∨ c = '-' ∨ c = '.')) : Leads kind (n.source ++ c :: after) n := by
  refine ⟨hn, List.prefix_append _ _, fun m hm hmstart => ?_⟩
  by_contra hlonger
  have hnext : n.source ++ [c] <+: n.source ++ c :: after := ⟨after, by simp⟩
  have hwithin : n.source ++ [c] <+: m.source := by
    apply List.prefix_of_prefix_length_le hnext hmstart
    rw [List.length_append, List.length_singleton]
    omega
  have hmem : c ∈ m.source := hwithin.subset (by simp)
  exact hc (Numeral.of_mem_source (hkind m hm) hmem)

/-- Up to its exponent, the longest numeral is the longest without one: what is longer goes over
    the letter of the exponent. -/
theorem Leads.mantissa (h : Leads (fun _ => True) text n) :
    Leads (Numeral.IsPlain true) text n.mantissa := by
  obtain ⟨after, hafter⟩ := h.starts
  rw [n.source_eq] at hafter
  cases hexponent : n.exponent with
  | none =>
    rw [hexponent, Option.elim_none, List.append_nil] at hafter
    refine ⟨n.isPlain_mantissa, ⟨after, hafter⟩, fun m _ hmstart => ?_⟩
    have hlength := h.longest m trivial hmstart
    rw [n.source_eq, hexponent, Option.elim_none, List.append_nil] at hlength
    exact hlength
  | some e =>
    have hletter : ¬ (e.letter.isDigit ∨ e.letter = '+' ∨ e.letter = '-' ∨ e.letter = '.') := by
      rcases e.letter_eq with heq | heq
      · rw [heq]
        decide
      · rw [heq]
        decide
    have htext : text = n.mantissa.source ++ e.letter :: (e.sign.toList ++ e.digits ++ after) := by
      rw [← hafter, hexponent]
      simp [Exponent.source]
    rw [htext]
    exact leads_of_ends n.isPlain_mantissa (fun m hm => hm.1) hletter

/-- Behind the longest numeral without an exponent there is no digit. -/
theorem Leads.digit_ends {fractional : Bool}
    (h : Leads (Numeral.IsPlain fractional) (n.source ++ after) n) :
    ∀ c ∈ after.head?, c.isDigit = false := by
  intro c hc
  obtain ⟨rest, rfl⟩ : ∃ rest, after = c :: rest := List.head?_eq_some_iff.1 hc
  rw [← Bool.not_eq_true]
  intro hdigit
  obtain ⟨hexponent, hfractional⟩ := h.fits
  -- with one digit more, before the point or behind it, the numeral is longer
  cases hfraction : n.fraction with
  | none =>
    have hlonger : (n.appendWhole hdigit).source = n.source ++ [c] := by
      simp [Numeral.source, Numeral.appendWhole, hfraction, hexponent]
    exact h.not_continued hlonger ⟨hexponent, hfractional⟩
  | some digits =>
    have hdigits := isDigit_append_singleton (n.isDigit_fraction digits hfraction) hdigit
    have hlonger : (n.withFraction (digits ++ [c]) hdigits (by simp)).source = n.source ++ [c] := by
      simp [Numeral.source, Numeral.withFraction, hfraction, hexponent]
    refine h.not_continued hlonger ⟨hexponent, fun hinteger => ?_⟩
    rw [hfractional hinteger] at hfraction
    cases hfraction

/-- Behind the longest number of digits alone there is no point, if one is allowed. -/
theorem Leads.point_ends (h : Leads (Numeral.IsPlain true) (n.source ++ after) n)
    (hfraction : n.fraction = none) : after.head? ≠ some '.' := by
  intro hpoint
  obtain ⟨rest, rfl⟩ : ∃ rest, after = '.' :: rest := List.head?_eq_some_iff.1 hpoint
  have hwhole : n.whole ≠ [] := by
    have hne := n.ne_nil
    rw [hfraction] at hne
    simpa using hne
  have hlonger : (n.withFraction [] nofun (by simpa using hwhole)).source = n.source ++ ['.'] := by
    simp [Numeral.source, Numeral.withFraction, hfraction, h.fits.1]
  exact h.not_continued hlonger ⟨h.fits.1, nofun⟩

end leads

/-! ### Reading -/

section reading

variable {fractional negative : Bool} {text rest : List Char}

/-- The digits behind a point, if there is one and it is looked at. -/
def fractionDigits (fractional : Bool) : List Char → List Char
  | '.' :: rest => if fractional then rest.takeWhile Char.isDigit else []
  | _ => []

/-- Reads the number at the start of a text after its sign. -/
def unsignedNumber? (fractional negative : Bool) (text : List Char) : Option Extended :=
  let whole := text.takeWhile Char.isDigit
  let fraction := fractionDigits fractional (text.dropWhile Char.isDigit)
  if whole.isEmpty && fraction.isEmpty then none
  else
    let value := (whole ++ fraction).foldl (fun n c => n * 10 + (c.toNat - '0'.toNat)) 0
    some (Binary64.ofDecimal negative value (-(fraction.length : Int)))

/-- Blanks and a sign come first. -/
theorem leadingNumber?_eq {sign : Option Char}
    (h : text.dropWhile Unicode.blank.contains = sign.toList ++ rest)
    (hsign : ∀ c ∈ sign, c = '+' ∨ c = '-')
    (hrest : sign = none → ∀ c ∈ rest.head?, c ≠ '+' ∧ c ≠ '-') :
    leadingNumber? fractional text = unsignedNumber? fractional (sign == some '-') rest := by
  unfold leadingNumber?
  rw [h]
  cases sign with
  | some c =>
    rcases hsign c rfl with rfl | rfl
    · rfl
    · rfl
  | none =>
    cases rest with
    | nil => rfl
    | cons c rest =>
      obtain ⟨hplus, hminus⟩ := hrest rfl c rfl
      dsimp only [Option.toList_none, List.nil_append]
      split
      · next heq => exact absurd (List.cons.inj heq).1 hminus
      · next heq => exact absurd (List.cons.inj heq).1 hplus
      · rfl

/-- A point with digits is read to its end, and nothing is read where there is none. -/
theorem fractionDigits_append {fraction : Option (List Char)}
    (hfraction : ∀ digits ∈ fraction, ∀ c ∈ digits, c.isDigit)
    (hfractional : fractional = false → fraction = none)
    (hdigit : ∀ c ∈ rest.head?, c.isDigit = false)
    (hpoint : fractional → fraction = none → rest.head? ≠ some '.') :
    fractionDigits fractional (fraction.elim [] ('.' :: ·) ++ rest) = fraction.getD [] := by
  cases fraction with
  | some digits =>
    have hallowed : fractional = true := by
      rw [← Bool.not_eq_false]
      intro hinteger
      cases hfractional hinteger
    show (if fractional then (digits ++ rest).takeWhile Char.isDigit else []) = digits
    rw [if_pos hallowed, (takeWhile_append_of_head (hfraction digits rfl) hdigit).1]
  | none =>
    show fractionDigits fractional rest = []
    unfold fractionDigits
    split
    · next others =>
      rw [if_neg fun hallowed => hpoint hallowed rfl rfl]
    · rfl

/-- The digits of a number are read to their end. -/
theorem unsignedNumber?_append {whole : List Char} {fraction : Option (List Char)}
    (hwhole : ∀ c ∈ whole, c.isDigit) (hfraction : ∀ digits ∈ fraction, ∀ c ∈ digits, c.isDigit)
    (hne : whole ++ fraction.getD [] ≠ []) (hfractional : fractional = false → fraction = none)
    (hdigit : ∀ c ∈ rest.head?, c.isDigit = false)
    (hpoint : fractional → fraction = none → rest.head? ≠ some '.') :
    unsignedNumber? fractional negative (whole ++ (fraction.elim [] ('.' :: ·) ++ rest)) =
      some (Binary64.ofDecimal negative (Nat.ofDigitChars 10 (whole ++ fraction.getD []) 0)
        (-((fraction.getD []).length : Int))) := by
  have hstop : ∀ c ∈ (fraction.elim [] ('.' :: ·) ++ rest).head?, c.isDigit = false := by
    cases fraction with
    | some digits => rintro c ⟨⟩; rfl
    | none => exact hdigit
  obtain ⟨htake, hdrop⟩ := takeWhile_append_of_head hwhole hstop
  have hempty : ¬ (whole.isEmpty && (fraction.getD []).isEmpty) := by
    simpa using hne
  have hspelled : (fun (n : Nat) (c : Char) => n * 10 + (c.toNat - '0'.toNat)) =
      fun n c => 10 * n + (c.toNat - '0'.toNat) := by
    funext n c
    rw [Nat.mul_comm]
  simp only [unsignedNumber?, htake, hdrop, fractionDigits_append hfraction hfractional hdigit hpoint]
  rw [if_neg hempty, Nat.ofDigitChars_eq_foldl, hspelled]

/-- What is read is the longest numeral without an exponent. -/
theorem leadingNumber?_of_leads {n : Numeral}
    (h : Leads (Numeral.IsPlain fractional) (text.dropWhile Unicode.blank.contains) n) :
    leadingNumber? fractional text = some n.number := by
  obtain ⟨after, hafter⟩ := h.starts
  obtain ⟨hexponent, hfractional⟩ := h.fits
  rw [← hafter] at h
  have hsplit : text.dropWhile Unicode.blank.contains =
      n.sign.toList ++ (n.whole ++ (n.fraction.elim [] ('.' :: ·) ++ after)) := by
    rw [← hafter]
    simp [Numeral.source, hexponent]
  have hpoint : fractional → n.fraction = none → after.head? ≠ some '.' := by
    intro hallowed hnone
    rw [hallowed] at h
    exact h.point_ends hnone
  have hfirst : ∀ c ∈ (n.whole ++ (n.fraction.elim [] ('.' :: ·) ++ after)).head?, c ≠ '+' ∧ c ≠ '-' :=
    n.not_sign_of_head after
  rw [leadingNumber?_eq hsplit n.sign_eq fun _ => hfirst,
    unsignedNumber?_append n.isDigit_whole n.isDigit_fraction n.ne_nil hfractional h.digit_ends hpoint]
  simp [Numeral.number, Numeral.negative, Numeral.digits, Numeral.power, hexponent]

/-- A number that is read after its sign is written there. -/
theorem exists_of_unsignedNumber? {x : Extended} (h : unsignedNumber? fractional negative text = some x) :
    ∃ (whole : List Char) (fraction : Option (List Char)), (∀ c ∈ whole, c.isDigit) ∧
      (∀ digits ∈ fraction, ∀ c ∈ digits, c.isDigit) ∧ whole ++ fraction.getD [] ≠ [] ∧
      (fractional = false → fraction = none) ∧
      whole ++ fraction.elim [] ('.' :: ·) <+: text := by
  have hdigits : ∀ {text : List Char}, ∀ c ∈ text.takeWhile Char.isDigit, c.isDigit := by
    intro text c hc
    exact List.all_eq_true.1 List.all_takeWhile c hc
  have htext : text.takeWhile Char.isDigit ++ text.dropWhile Char.isDigit = text :=
    List.takeWhile_append_dropWhile
  have hne : text.takeWhile Char.isDigit ++ fractionDigits fractional (text.dropWhile Char.isDigit) ≠ [] := by
    intro hnil
    rw [List.append_eq_nil_iff] at hnil
    simp [unsignedNumber?, hnil.1, hnil.2] at h
  -- a point counts if digits behind it are looked at
  by_cases hpoint : fractional = true ∧ ∃ rest, text.dropWhile Char.isDigit = '.' :: rest
  · obtain ⟨hallowed, rest, hrest⟩ := hpoint
    rw [hrest] at hne htext
    refine ⟨text.takeWhile Char.isDigit, some (rest.takeWhile Char.isDigit), hdigits, ?_, ?_, ?_, ?_⟩
    · rintro _ ⟨⟩
      exact hdigits
    · simpa [fractionDigits, hallowed] using hne
    · rw [hallowed]
      exact nofun
    · refine ⟨rest.dropWhile Char.isDigit, ?_⟩
      conv_rhs => rw [← htext]
      simp
  · have hnone : fractionDigits fractional (text.dropWhile Char.isDigit) = [] := by
      unfold fractionDigits
      split
      · next rest hrest =>
        rw [if_neg fun hallowed => hpoint ⟨hallowed, rest, hrest⟩]
      · rfl
    rw [hnone] at hne
    refine ⟨text.takeWhile Char.isDigit, none, hdigits, nofun, hne, fun _ => rfl, ?_⟩
    rw [Option.elim_none, List.append_nil]
    exact List.takeWhile_prefix _

/-- A number that is read has a numeral at the start of the text. -/
theorem exists_numeral_of_leadingNumber? {x : Extended} (h : leadingNumber? fractional text = some x) :
    ∃ n : Numeral, n.IsPlain fractional ∧ n.source <+: text.dropWhile Unicode.blank.contains := by
  obtain ⟨sign, rest, hsplit, hsign, hrest⟩ : ∃ (sign : Option Char) (rest : List Char),
      text.dropWhile Unicode.blank.contains = sign.toList ++ rest ∧ (∀ c ∈ sign, c = '+' ∨ c = '-') ∧
      (sign = none → ∀ c ∈ rest.head?, c ≠ '+' ∧ c ≠ '-') := by
    by_cases hsign : ∃ c ∈ (text.dropWhile Unicode.blank.contains).head?, c = '+' ∨ c = '-'
    · obtain ⟨c, hc, hsign⟩ := hsign
      refine ⟨some c, (text.dropWhile Unicode.blank.contains).tail, ?_, ?_, nofun⟩
      · exact (List.cons_head?_tail hc).symm
      · rintro _ ⟨⟩
        exact hsign
    · push Not at hsign
      exact ⟨none, _, rfl, nofun, fun _ => hsign⟩
  rw [leadingNumber?_eq hsplit hsign hrest] at h
  obtain ⟨whole, fraction, hwhole, hfraction, hne, hfractional, hstart⟩ := exists_of_unsignedNumber? h
  let n : Numeral := ⟨sign, whole, fraction, none, hsign, hwhole, hfraction, hne⟩
  refine ⟨n, ⟨rfl, hfractional⟩, ?_⟩
  rw [hsplit]
  simpa [Numeral.source, n] using hstart

/-- Nothing is read exactly if no numeral is there. -/
theorem leadingNumber?_eq_none_iff :
    leadingNumber? fractional text = none ↔
      ¬ ∃ n : Numeral, n.IsPlain fractional ∧ n.source <+: text.dropWhile Unicode.blank.contains := by
  constructor
  · intro hnone hexists
    obtain ⟨n, hn⟩ := exists_leads hexists
    rw [leadingNumber?_of_leads hn] at hnone
    cases hnone
  · intro hnot
    rw [Option.eq_none_iff_forall_ne_some]
    intro x hx
    exact hnot (exists_numeral_of_leadingNumber? hx)

end reading

/-- Of a text, an integer at its start is read to its end, and a number up to its exponent;
    nothing is read exactly if there is none. The exponent is read over, and that makes another
    number unless the exponent is zero or both numbers are zero or beyond the range. -/
theorem numbers_at_start (s : String) :
    let text := s.toList.dropWhile Unicode.blank.contains
    (leadingNumber? false s.toList = none ↔ ¬ ∃ n : Numeral, n.IsInteger ∧ n.source <+: text) ∧
    (∀ n, Leads Numeral.IsInteger text n → leadingNumber? false s.toList = some n.number) ∧
    (leadingNumber? true s.toList = none ↔ ¬ ∃ n : Numeral, n.source <+: text) ∧
    ∀ n, Leads (fun _ => True) text n →
      leadingNumber? true s.toList = some n.mantissa.number ∧
      (leadingNumber? true s.toList = some n.number ↔
        n.power = 0 ∨
        (∃ x, x.isZero ∧ n.mantissa.number = .finite x ∧ n.number = .finite x) ∨
        (n.mantissa.number = .infinite n.negative ∧ n.number = .infinite n.negative)) := by
  intro text
  refine ⟨?_, ?_, ?_, ?_⟩
  · rw [leadingNumber?_eq_none_iff, Numeral.isPlain_false]
  · intro n hn
    apply leadingNumber?_of_leads
    rw [Numeral.isPlain_false]
    exact hn
  · rw [leadingNumber?_eq_none_iff]
    refine not_congr ⟨fun ⟨n, _, hn⟩ => ⟨n, hn⟩, fun ⟨n, hn⟩ => ?_⟩
    exact ⟨n.mantissa, n.isPlain_mantissa, n.mantissa_prefix.trans hn⟩
  · intro n hn
    have hread : leadingNumber? true s.toList = some n.mantissa.number :=
      leadingNumber?_of_leads hn.mantissa
    refine ⟨hread, ?_⟩
    rw [hread, Option.some.injEq]
    -- the numeral and its mantissa have the same digits, at another scale
    have hscale : (0 : Int) - (n.fraction.getD []).length = n.power - (n.fraction.getD []).length ↔
        n.power = 0 := by omega
    exact Binary64.ofDecimal_eq_ofDecimal_iff.trans (or_congr_left hscale)

/-- One and an exponent of five. -/
def hundredThousand : Numeral :=
  { Numeral.integer none ['1'] nofun (List.all_eq_true.1 rfl) (List.cons_ne_nil _ _) with
    exponent := some ⟨'e', none, ['5'], .inl rfl, nofun, List.all_eq_true.1 rfl, List.cons_ne_nil _ _⟩ }

/-- Of a numeral with an exponent only what stands before it is read. -/
theorem number_before_exponent :
    Leads (fun _ => True) ("1e5".toList.dropWhile Unicode.blank.contains) hundredThousand ∧
      leadingNumber? true "1e5".toList ≠ some hundredThousand.number ∧
      hundredThousand.number.display = "100000" ∧ (Parameter.text "1e5").floatText none = "1" := by
  have htext : "1e5".toList.dropWhile Unicode.blank.contains = hundredThousand.source := by decide +kernel
  have hleads : Leads (fun _ => True) ("1e5".toList.dropWhile Unicode.blank.contains) hundredThousand := by
    rw [htext]
    exact ⟨trivial, List.prefix_refl _, fun m _ hm => hm.length_le⟩
  obtain ⟨-, hread⟩ := (numbers_at_start "1e5").2.2.2 hundredThousand hleads
  refine ⟨hleads, fun heq => ?_, by decide +kernel, by decide +kernel⟩
  -- the exponent is five, and the numbers are neither zero nor beyond the range
  rcases hread.1 heq with hpower | ⟨x, hzero, hx, -⟩ | ⟨hinfinite, -⟩
  · exact absurd hpower (by decide)
  · have hone : (hundredThousand.mantissa.number.getD Binary64.zero).isZero = false := by
      decide +kernel
    rw [hx] at hone
    exact Bool.false_ne_true (hone.symm.trans hzero)
  · exact absurd hinfinite (by decide +kernel)

end Console
