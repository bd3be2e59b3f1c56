import Console.Proofs.Json.Spelling

/-! # Reading on

    A value that was read from the front of a text is read from the front of every longer
    text, and with any more fuel (`readValue?_extend`). The reader looks one character past a
    value at most, and only a number needs it to look: so what follows a number must not be
    the end of the shorter text.

    - `Number.read?_extend`, `stringBody?_extend`, `word?_extend`: the leaves,
    - `readLeading?_within`: a value between blanks and anything at all,
    - `readLeading?_of_parseMembers?`: the members of an object and the object itself are
      read alike, but for repeated names.
-/

namespace Console

namespace Number

variable {text rest : List Char}

/-! ### Numbers -/

/-- A run that ends within a list ends there in every longer list. -/
theorem takeWhile_dropWhile_extend {α : Type} {p : α → Bool} {xs : List α} (h : xs.dropWhile p ≠ [])
    (more : List α) : (xs ++ more).takeWhile p = xs.takeWhile p ∧
      (xs ++ more).dropWhile p = xs.dropWhile p ++ more := by
  induction xs with
  | nil => exact absurd rfl h
  | cons x xs ih =>
    cases hx : p x with
    | false => simp [hx]
    | true =>
      have hrest : xs.dropWhile p ≠ [] := by simpa [hx] using h
      simpa [hx] using ih hrest

theorem fraction?_extend {fraction : Option (List Char)} (h : fraction? text = some (fraction, rest))
    (hrest : rest ≠ []) (more : List Char) :
    fraction? (text ++ more) = some (fraction, rest ++ more) := by
  unfold fraction? at h
  split at h
  · next digits =>
    simp only at h
    split at h
    · cases h
    · next hdigits =>
      cases h
      obtain ⟨htake, hdrop⟩ := takeWhile_dropWhile_extend hrest more
      rw [List.cons_append, fraction?]
      simp only [htake, hdrop, if_neg hdigits]
  · next hpoint =>
    cases h
    obtain ⟨c, others, rfl⟩ := List.exists_cons_of_ne_nil hrest
    rw [List.cons_append, fraction?]
    intro _ hc
    exact hpoint others (by rw [(List.cons.inj hc).1])

/-- The sign of an exponent, if it has one, and the text behind it. -/
def powerSign : List Char → Bool × List Char
  | '+' :: text => (false, text)
  | '-' :: text => (true, text)
  | text => (false, text)

/-- The digits of an exponent, after its sign. -/
def power? (negative : Bool) (text : List Char) : Option (Option Int × List Char) :=
  let digits := text.takeWhile Char.isDigit
  if digits.isEmpty then none
  else
    let n : Int := ofDigits digits
    some (some (if negative then -n else n), text.dropWhile Char.isDigit)

theorem exponent?_cons {c : Char} (hc : (c == 'e' || c == 'E') = true) (text : List Char) :
    exponent? (c :: text) = power? (powerSign text).1 (powerSign text).2 :=
  if_pos hc

theorem powerSign_extend (h : (powerSign text).2 ≠ []) (more : List Char) :
    powerSign (text ++ more) = ((powerSign text).1, (powerSign text).2 ++ more) := by
  unfold powerSign at h ⊢
  split at h
  · rfl
  · rfl
  · next hplus hminus =>
    obtain ⟨c, others, rfl⟩ := List.exists_cons_of_ne_nil h
    rw [List.cons_append]
    split
    · next heq => exact absurd (by rw [(List.cons.inj heq).1]) (hplus others)
    · next heq => exact absurd (by rw [(List.cons.inj heq).1]) (hminus others)
    · rfl

theorem power?_extend {negative : Bool} {exponent : Option Int}
    (h : power? negative text = some (exponent, rest)) (hrest : rest ≠ []) (more : List Char) :
    power? negative (text ++ more) = some (exponent, rest ++ more) := by
  unfold power? at h
  simp only at h
  split at h
  · cases h
  · next hdigits =>
    cases h
    obtain ⟨htake, hdrop⟩ := takeWhile_dropWhile_extend hrest more
    rw [power?]
    simp only [htake, hdrop, if_neg hdigits]

theorem exponent?_extend {exponent : Option Int} (h : exponent? text = some (exponent, rest))
    (hrest : rest ≠ []) (more : List Char) :
    exponent? (text ++ more) = some (exponent, rest ++ more) := by
  cases text with
  | nil =>
    cases h
    exact absurd rfl hrest
  | cons c text =>
    by_cases hc : (c == 'e' || c == 'E') = true
    · rw [exponent?_cons hc] at h
      have hsign : (powerSign text).2 ≠ [] := by
        intro hnil
        rw [hnil] at h
        cases h
      rw [List.cons_append, exponent?_cons hc, powerSign_extend hsign]
      exact power?_extend h hrest more
    · have hnone : ∀ others, exponent? (c :: others) = some (none, c :: others) :=
        fun _ => if_neg hc
      rw [hnone] at h
      cases h
      exact hnone (text ++ more)

theorem readUnsigned?_extend {negative : Bool} {n : Number}
    (h : readUnsigned? negative text = some (n, rest)) (hrest : rest ≠ []) (more : List Char) :
    readUnsigned? negative (text ++ more) = some (n, rest ++ more) := by
  unfold readUnsigned? at h
  simp only at h
  split at h
  · cases h
  · next hwhole =>
    simp only [Option.bind_eq_bind, Option.bind_eq_some_iff] at h
    obtain ⟨⟨fraction, afterFraction⟩, hfraction, ⟨exponent, afterExponent⟩, hexponent,
      value, hvalue, h⟩ := h
    cases h
    -- something is left behind each part, since something is left behind the last one
    have hafter : afterFraction ≠ [] := by
      rintro rfl
      cases hexponent
      exact hrest rfl
    have hdigits : text.dropWhile Char.isDigit ≠ [] := by
      intro hnil
      rw [hnil] at hfraction
      cases hfraction
      exact hafter rfl
    obtain ⟨htake, hdrop⟩ := takeWhile_dropWhile_extend hdigits more
    rw [readUnsigned?]
    simp only [htake, hdrop, fraction?_extend hfraction hafter, exponent?_extend hexponent hrest,
      hvalue, if_neg hwhole, Option.bind_eq_bind, Option.bind_some]
    rfl

/-- A number that something follows is read alike whatever comes behind that. -/
theorem read?_extend {n : Number} (h : read? text = some (n, rest)) (hrest : rest ≠ [])
    (more : List Char) : read? (text ++ more) = some (n, rest ++ more) := by
  cases text with
  | nil => cases h
  | cons c text =>
    by_cases hc : c = '-'
    · subst hc
      rw [read?_hyphen] at h
      rw [List.cons_append, read?_hyphen]
      exact readUnsigned?_extend h hrest more
    · rw [read?_of_ne_hyphen hc] at h
      rw [List.cons_append, read?_of_ne_hyphen hc]
      exact readUnsigned?_extend h hrest more

end Number

namespace Json

/-! ### Strings, words and blanks -/

theorem stringBody?_extend {seen text rest : List Char} {s : String}
    (h : stringBody? seen text = some (s, rest)) (more : List Char) :
    stringBody? seen (text ++ more) = some (s, rest ++ more) := by
  fun_induction stringBody? seen text with
  | case1 => cases h
  | case2 =>
    cases h
    rfl
  | case5 seen a b c d unit hunit hhigh e f g i others low hlow hpair ih =>
    simpa only [List.cons_append, stringBody?, hunit, hlow, if_pos hhigh, if_pos hpair] using ih h
  | case9 seen a b c d others unit hunit hhigh hlow ih =>
    simpa only [List.cons_append, stringBody?, hunit, if_neg hhigh, if_neg hlow] using ih h
  | case10 seen c others hu escaped hescape ih =>
    have hne : c ≠ 'u' := by
      rintro rfl
      cases hescape
    rw [List.cons_append, List.cons_append, stringBody?]
    · simpa only [hescape] using ih h
    · exact fun _ _ _ _ _ hc => absurd hc hne
  | case13 seen c others hquote hu hescape hplain ih =>
    cases others with
    | nil => cases h
    | cons d others =>
      have hbackslash : c ≠ '\\' := fun hc => hescape d others hc rfl
      rw [List.cons_append, stringBody?, if_neg hplain]
      · exact ih h
      · exact hquote
      · exact fun _ _ _ _ _ hc => absurd hc hbackslash
      · exact fun _ _ hc => absurd hc hbackslash
  | _ => cases h

variable {text rest : List Char}

theorem word?_extend {value : Json} (h : word? text = some (value, rest)) (more : List Char) :
    word? (text ++ more) = some (value, rest ++ more) := by
  unfold word? at h
  split at h
  · cases h; rfl
  · cases h; rfl
  · cases h; rfl
  · cases h

theorem skipSpace_extend {c : Char} (h : skipSpace text = c :: rest) (more : List Char) :
    skipSpace (text ++ more) = c :: (rest ++ more) := by
  have hne : text.dropWhile isSpace ≠ [] := by
    intro hnil
    rw [skipSpace, hnil] at h
    cases h
  have hdrop : skipSpace (text ++ more) = skipSpace text ++ more :=
    (Number.takeWhile_dropWhile_extend hne more).2
  rw [hdrop, h, List.cons_append]

theorem skipSpace_ne_extend {c close : Char} {others : List Char} (h : skipSpace text = c :: others)
    (hne : ∀ rest, skipSpace text ≠ close :: rest) (more : List Char) :
    ∀ rest, skipSpace (text ++ more) ≠ close :: rest := by
  intro rest hclose
  rw [skipSpace_extend h] at hclose
  exact hne others (by rw [h, (List.cons.inj hclose).1])

/-! ### Values -/

section
variable {depth fuel : Nat} {c : Char} {others : List Char}

/-- Items are read from a text with something in it. -/
theorem exists_of_readItems? {items : List Json} (h : readItems? depth fuel text = some (items, rest)) :
    ∃ c others, skipSpace text = c :: others := by
  cases hskip : skipSpace text with
  | cons c others => exact ⟨c, others, rfl⟩
  | nil =>
    rw [← readItems?_skipSpace, hskip] at h
    rcases fuel with _ | _ | fuel
    · cases h
    · cases h
    · cases h

/-- So are members. -/
theorem exists_of_readMembers? {members : List (String × Json)}
    (h : readMembers? depth fuel text = some (members, rest)) :
    ∃ c others, skipSpace text = c :: others := by
  cases hskip : skipSpace text with
  | cons c others => exact ⟨c, others, rfl⟩
  | nil =>
    rw [← readMembers?_skipSpace, hskip] at h
    cases fuel with
    | zero => cases h
    | succ fuel => cases h

/-- The text of a value starts behind its blanks. -/
theorem readValue?_start (h : skipSpace text = c :: others) (more : List Char) :
    readValue? depth fuel (text ++ more) = readValue? depth fuel (c :: (others ++ more)) := by
  rw [← readValue?_skipSpace, skipSpace_extend h]

/-- What opens neither a string nor a container is a number or a word. -/
theorem readValue?_leaf (h : skipSpace text = c :: others) (hquote : c ≠ '"') (hbracket : c ≠ '[')
    (hbrace : c ≠ '\x7b') : readValue? depth (fuel + 1) text =
      if c == '-' || c.isDigit then
        (Number.read? (c :: others)).map fun (n, rest) => (.number n, rest)
      else word? (c :: others) := by
  rw [readValue?, h]
  split
  · next heq => exact absurd (List.cons.inj heq).1 hquote
  · next heq => exact absurd (List.cons.inj heq).1 hbracket
  · next heq => exact absurd (List.cons.inj heq).1 hbrace
  · next heq =>
    cases heq
    rfl
  · next heq => cases heq

end

mutual

/-- A value that was read is read again with more text behind it and more fuel. -/
theorem readValue?_extend : ∀ {fuel spare depth : Nat} {text rest : List Char} {value : Json},
    readValue? depth fuel text = some (value, rest) → (∀ n, value = .number n → rest ≠ []) →
    ∀ more, readValue? depth (fuel + spare) (text ++ more) = some (value, rest ++ more)
  | 0, _, _, _, _, _, h, _, _ => nomatch h
  | fuel + 1, spare, depth, text, rest, value, h, hend, more => by
    have hfuel : fuel + 1 + spare = fuel + spare + 1 := by omega
    rw [hfuel]
    rw [readValue?] at h
    split at h
    · next body htext =>
      obtain ⟨⟨s, behind⟩, hbody, h⟩ := Option.map_eq_some_iff.1 h
      cases h
      rw [readValue?_start htext, readValue?, skipSpace_cons (by rfl)]
      simp only [stringBody?_extend hbody, Option.map_some]
    · next inner htext =>
      cases depth with
      | zero => cases h
      | succ depth =>
        simp only at h
        split at h
        · next behind hclose =>
          cases h
          rw [readValue?_start htext, readValue?, skipSpace_cons (by rfl)]
          simp only [skipSpace_extend hclose]
        · next hopen =>
          obtain ⟨⟨items, behind⟩, hitems, h⟩ := Option.map_eq_some_iff.1 h
          cases h
          rw [readItems?_skipSpace] at hitems
          obtain ⟨c, others, hinner⟩ := exists_of_readItems? hitems
          rw [readValue?_start htext, readValue?_array (skipSpace_ne_extend hinner hopen more),
            readItems?_extend hitems more]
          rfl
    · next inner htext =>
      cases depth with
      | zero => cases h
      | succ depth =>
        simp only at h
        split at h
        · next behind hclose =>
          cases h
          rw [readValue?_start htext, readValue?, skipSpace_cons (by rfl)]
          simp only [skipSpace_extend hclose]
        · next hopen =>
          obtain ⟨⟨members, behind⟩, hmembers, h⟩ := Option.map_eq_some_iff.1 h
          cases h
          rw [readMembers?_skipSpace] at hmembers
          obtain ⟨c, others, hinner⟩ := exists_of_readMembers? hmembers
          rw [readValue?_start htext, readValue?_object (skipSpace_ne_extend hinner hopen more),
            readMembers?_extend hmembers more]
          rfl
    · next c others hquote hbracket hbrace htext =>
      rw [readValue?_leaf (skipSpace_extend htext more) hquote hbracket hbrace]
      split at h
      · next hdigit =>
        -- a number at the end of the text would go on with further digits
        obtain ⟨⟨n, behind⟩, hnumber, h⟩ := Option.map_eq_some_iff.1 h
        cases h
        have hextend := Number.read?_extend hnumber (hend n rfl) more
        rw [List.cons_append] at hextend
        rw [if_pos hdigit, hextend]
        rfl
      · next hdigit =>
        rw [if_neg hdigit]
        exact word?_extend h more
    · cases h

/-- Items end with a bracket, so each of them is followed by something. -/
theorem readItems?_extend : ∀ {fuel spare depth : Nat} {text rest : List Char} {items : List Json},
    readItems? depth fuel text = some (items, rest) →
    ∀ more, readItems? depth (fuel + spare) (text ++ more) = some (items, rest ++ more)
  | 0, _, _, _, _, _, h, _ => nomatch h
  | fuel + 1, spare, depth, text, rest, items, h, more => by
    have hfuel : fuel + 1 + spare = fuel + spare + 1 := by omega
    rw [hfuel, readItems?]
    rw [readItems?] at h
    split at h
    · cases h
    · next item behind hitem =>
      -- the comma or the bracket that is looked for next stops a number
      have hbehind : behind ≠ [] := by
        rintro rfl
        cases h
      simp only [readValue?_extend hitem (fun _ _ => hbehind) more]
      split at h
      · next inner hcomma =>
        obtain ⟨⟨others, end'⟩, hothers, h⟩ := Option.map_eq_some_iff.1 h
        cases h
        simp only [skipSpace_extend hcomma, readItems?_extend hothers more]
        rfl
      · next inner hclose =>
        cases h
        simp only [skipSpace_extend hclose]
      · cases h

/-- Members end with a brace, so each of them is followed by something. -/
theorem readMembers?_extend : ∀ {fuel spare depth : Nat} {text rest : List Char}
    {members : List (String × Json)}, readMembers? depth fuel text = some (members, rest) →
    ∀ more, readMembers? depth (fuel + spare) (text ++ more) = some (members, rest ++ more)
  | 0, _, _, _, _, _, h, _ => nomatch h
  | fuel + 1, spare, depth, text, rest, members, h, more => by
    have hfuel : fuel + 1 + spare = fuel + spare + 1 := by omega
    rw [hfuel, readMembers?]
    rw [readMembers?] at h
    split at h
    · next body htext =>
      simp only [skipSpace_extend htext]
      split at h
      · cases h
      · next name behind hname =>
        simp only [stringBody?_extend hname]
        split at h
        · next inner hcolon =>
          simp only [skipSpace_extend hcolon]
          split at h
          · cases h
          · next value behind hvalue =>
            have hbehind : behind ≠ [] := by
              rintro rfl
              cases h
            simp only [readValue?_extend hvalue (fun _ _ => hbehind) more]
            split at h
            · next inner hcomma =>
              obtain ⟨⟨others, end'⟩, hothers, h⟩ := Option.map_eq_some_iff.1 h
              cases h
              simp only [skipSpace_extend hcomma, readMembers?_extend hothers more]
              rfl
            · next inner hclose =>
              cases h
              simp only [skipSpace_extend hclose]
            · cases h
        · cases h
    · cases h

end

/-! ### Whole texts -/

section
variable {depth : Nat} {value : Json}

theorem skipSpace_eq_nil_iff : skipSpace text = [] ↔ ∀ c ∈ text, isSpace c := by
  refine ⟨fun h => ?_, skipSpace_blanks⟩
  have hsplit : text.takeWhile isSpace ++ skipSpace text = text := List.takeWhile_append_dropWhile
  rw [h, List.append_nil] at hsplit
  exact List.all_eq_true.1 (hsplit ▸ List.all_takeWhile)

/-- A text is one value if blanks alone stand behind the value at its front. -/
theorem parse?_ofList_eq_some_iff :
    parse? (String.ofList text) = some value ↔
      ∃ rest, readLeading? nesting text = some (value, rest) ∧ skipSpace rest = [] := by
  rw [parse?, parseWithin?, String.toList_ofList]
  cases readLeading? nesting text with
  | none => simp
  | some read =>
    obtain ⟨found, rest⟩ := read
    constructor
    · intro h
      have hread : skipSpace rest = [] ∧ found = value := by simpa using h
      exact ⟨rest, by rw [hread.2], hread.1⟩
    · rintro ⟨behind, hread, hbehind⟩
      cases hread
      simp [hbehind]

/-- A value that is no number is read from wherever it stands behind blanks. -/
theorem readLeading?_within {blanks : List Char} (h : readLeading? depth text = some (value, rest))
    (hvalue : ∀ n, value ≠ .number n) (hblanks : ∀ c ∈ blanks, isSpace c) (more : List Char) :
    readLeading? depth (blanks ++ (text ++ more)) = some (value, rest ++ more) := by
  have hextend : readValue? depth (2 * text.length + 2 + (2 * blanks.length + 2 * more.length))
      (text ++ more) = some (value, rest ++ more) :=
    readValue?_extend h (fun n hn => absurd hn (hvalue n)) more
  have hfuel : 2 * (blanks ++ (text ++ more)).length + 2 =
      2 * text.length + 2 + (2 * blanks.length + 2 * more.length) := by
    simp only [List.length_append]
    omega
  rw [readLeading?, readValue?_append hblanks, hfuel]
  exact hextend

/-- A text whose members are read starts with a brace. -/
theorem exists_of_parseMembers? {text : String} {members : List (String × Json)}
    (h : parseMembers? text = some members) : ∃ inner, skipSpace text.toList = '\x7b' :: inner := by
  unfold parseMembers? at h
  split at h
  · next inner htext => exact ⟨inner, htext⟩
  · cases h

/-- A text whose members are read is their object and nothing more. -/
theorem readLeading?_of_parseMembers? {text : String} {members : List (String × Json)}
    (h : parseMembers? text = some members) :
    ∃ rest, readLeading? nesting text.toList = some (ofMembers members, rest) ∧
      skipSpace rest = [] := by
  obtain ⟨inner, htext⟩ := exists_of_parseMembers? h
  have hlength : inner.length + 1 ≤ text.toList.length := by
    have hdrop := (List.dropWhile_suffix (l := text.toList) isSpace).length_le
    rw [← skipSpace, htext] at hdrop
    exact hdrop
  have hstart : readLeading? nesting text.toList =
      readValue? nesting (2 * text.toList.length + 2) ('\x7b' :: inner) := by
    rw [readLeading?, ← readValue?_skipSpace, htext]
  unfold parseMembers? at h
  simp only [htext] at h
  split at h
  · next rest hclose =>
    have hrest : skipSpace rest = [] ∧ [] = members := by simpa using h
    refine ⟨rest, ?_, hrest.1⟩
    rw [hstart, ← hrest.2]
    show readValue? (nesting - 1 + 1) (2 * text.toList.length + 1 + 1) _ = _
    rw [readValue?, skipSpace_cons (by rfl)]
    simp only [hclose]
    rfl
  · next hopen =>
    obtain ⟨⟨found, rest⟩, hread, hend⟩ := Option.bind_eq_some_iff.1 h
    have hrest : skipSpace rest = [] ∧ found = members := by simpa using hend
    refine ⟨rest, ?_, hrest.1⟩
    have hfuel : 2 * text.toList.length + 1 = 2 * (skipSpace inner).length + 2 +
        (2 * text.toList.length - 2 * (skipSpace inner).length - 1) := by
      have hinner := (List.dropWhile_suffix (l := inner) isSpace).length_le
      rw [← skipSpace] at hinner
      omega
    have hmembers : readMembers? (nesting - 1) (2 * (skipSpace inner).length + 2 +
        (2 * text.toList.length - 2 * (skipSpace inner).length - 1)) (skipSpace inner ++ []) =
          some (found, rest ++ []) := readMembers?_extend hread []
    rw [List.append_nil, List.append_nil, ← hfuel, readMembers?_skipSpace] at hmembers
    rw [hstart, ← hrest.2]
    show readValue? (nesting - 1 + 1) (2 * text.toList.length + 1 + 1) _ = _
    rw [readValue?_object hopen, hmembers]
    rfl

end

end Json

end Console
