import Console.Proofs.Message.Filling

/-! # What a template makes of its arguments

    Filling in a template lays its fillings out as parts: runs of text between styles and
    values, and the values themselves. A run that stays empty is no part, and each part has
    the style that starts nearest before it.

    - `Shows`: fillings and parameters that read the same,
    - `Laid`: the parts of fillings with their styles,
    - `Segments.Covers`: what has been filled in so far is laid out in the finished parts and
      the text of the current one; `Covers.add` is one step and `covers_foldl` a whole run,
    - `Formatted.exists_parts`: an expanded template is made of the parts of its fillings,
    - `Formatted.expansion_in_order`: arguments are taken, shown and left over in order,
    - `Formatted.styles_aligned`: each part has the style that governs its content.
-/

namespace Console

/-! ### Reading the same -/

/-- The style that starts last in fillings. -/
def nearestStyle (fillings : List Filling) : Option String :=
  (fillings.filterMap Filling.style?).getLast?

/-- Says that fillings read like parameters: they have the same text and the same fronts. -/
structure Shows (fillings : List Filling) (parameters : List Parameter) : Prop where
  text : String.join (fillings.map Filling.display) =
    String.join (parameters.map Parameter.display)
  fronts : fillings.filterMap Filling.front? = parameters.filterMap Parameter.front?

theorem Shows.append {xs ys : List Filling} {ps qs : List Parameter} (h : Shows xs ps)
    (h' : Shows ys qs) : Shows (xs ++ ys) (ps ++ qs) where
  text := by rw [List.map_append, List.map_append, String.join_append, String.join_append, h.text, h'.text]
  fronts := by rw [List.filterMap_append, List.filterMap_append, h.fronts, h'.fronts]

/-- Says that a parameter can be a part: a text that is not empty, or a front. -/
def Parameter.IsPart (p : Parameter) : Prop :=
  (∃ value, value ≠ "" ∧ p = .text value) ∨ ∃ shared, p = .front shared

/-- Says that a filling is no more than text. -/
structure Filling.Plain (f : Filling) : Prop where
  style : f.style? = none
  front : f.front? = none

section fillings

variable {f : Filling} {fillings own : List Filling}

theorem nearestStyle_of_style? {css : String} (h : f.style? = some css) (fillings : List Filling) :
    nearestStyle (fillings ++ [f]) = some css := by
  simp [nearestStyle, h]

/-- What starts no style leaves the nearest one as it is. -/
theorem nearestStyle_append (fillings : List Filling) (h : ∀ f ∈ own, f.style? = none) :
    nearestStyle (fillings ++ own) = nearestStyle fillings := by
  have hnone : own.filterMap Filling.style? = [] := List.filterMap_eq_nil_iff.2 h
  rw [nearestStyle, List.filterMap_append, hnone, List.append_nil, nearestStyle]

/-- There is a nearest style exactly if a style starts somewhere. -/
theorem isSome_nearestStyle : (nearestStyle fillings).isSome ↔ ∃ f ∈ fillings, f.style?.isSome := by
  rw [nearestStyle, List.getLast?_isSome, ne_eq, List.filterMap_eq_nil_iff]
  simp [Option.ne_none_iff_isSome]

/-- A text reads like the fillings that make it up. -/
theorem shows_text (h : ∀ f ∈ own, f.Plain) :
    Shows own [.text (String.join (own.map Filling.display))] where
  text := by simp [Parameter.display]
  fronts := List.filterMap_eq_nil_iff.2 fun f hf => (h f hf).front

theorem shows_front {shared : Shared Front} (h : f.front? = some shared) :
    Shows [f] [.front shared] where
  text := by simp [(Filling.of_front? h).1]
  fronts := by simp [h, Parameter.front?]

/-- Fillings that show nothing read like no parameters. -/
theorem shows_nil (htext : String.join (own.map Filling.display) = "")
    (hfront : ∀ f ∈ own, f.front? = none) : Shows own [] where
  text := htext
  fronts := List.filterMap_eq_nil_iff.2 hfront

end fillings

/-! ### Parts -/

/-- Says that fillings are laid out as parts, each with the style that starts nearest before
    it. No style starts inside a part, and what lies between two parts shows nothing. -/
inductive Laid : List Filling → List (Parameter × Option String) → Prop where
  | nil : Laid [] []
  | blank {fillings own : List Filling} {parts : List (Parameter × Option String)} :
    Laid fillings parts → Shows own [] → Laid (fillings ++ own) parts
  | part {fillings own : List Filling} {parts : List (Parameter × Option String)} {p : Parameter} :
    Laid fillings parts → Shows own [p] → p.IsPart → (∀ f ∈ own, f.style? = none) →
      Laid (fillings ++ own) (parts ++ [(p, nearestStyle fillings)])

namespace Laid

variable {fillings : List Filling} {parts : List (Parameter × Option String)}

/-- Parts read like the fillings that are laid out. -/
theorem shows (h : Laid fillings parts) : Shows fillings (parts.map Prod.fst) := by
  induction h with
  | nil => exact ⟨rfl, rfl⟩
  | blank _ hown ih => simpa only [List.append_nil] using ih.append hown
  | part _ hown _ _ ih =>
    rw [List.map_append]
    exact ih.append hown

theorem isPart (h : Laid fillings parts) : ∀ part ∈ parts, part.1.IsPart := by
  induction h with
  | nil => simp
  | blank _ _ ih => exact ih
  | part _ _ hpart _ ih =>
    rw [List.forall_mem_append]
    exact ⟨ih, List.forall_mem_singleton.2 hpart⟩

/-- Each part has fillings of its own, after those that read like the parts before it. -/
theorem exists_own (h : Laid fillings parts) {i : Nat} {part : Parameter × Option String}
    (hi : parts[i]? = some part) :
    ∃ before own after, fillings = before ++ own ++ after ∧
      Shows before ((parts.take i).map Prod.fst) ∧ Shows own [part.1] ∧
      (∀ f ∈ own, f.style? = none) ∧ part.2 = nearestStyle before := by
  induction h with
  | nil => cases hi
  | @blank fillings blank parts _ _ ih =>
    obtain ⟨before, own, after, rfl, hrest⟩ := ih hi
    exact ⟨before, own, after ++ blank, by simp, hrest⟩
  | @part fillings last parts p hlaid hown _ hstyle ih =>
    by_cases hlt : i < parts.length
    · rw [List.getElem?_append_left hlt] at hi
      obtain ⟨before, own, after, rfl, hrest⟩ := ih hi
      rw [List.take_append_of_le_length (Nat.le_of_lt hlt)]
      exact ⟨before, own, after ++ last, by simp, hrest⟩
    · -- only the part that is laid out last comes after all others
      rw [List.getElem?_append_right (Nat.le_of_not_lt hlt), List.getElem?_singleton] at hi
      split at hi
      · next hzero =>
        cases hi
        have hlength : i = parts.length := by omega
        rw [hlength, List.take_left]
        exact ⟨fillings, last, [], (List.append_nil _).symm, hlaid.shows, hown, hstyle, rfl⟩
      · cases hi

end Laid

/-! ### Segments -/

namespace Segments

variable {s : Segments} {done : List Filling} {f : Filling}

@[simp] theorem style_flush (s : Segments) : s.flush.style = s.style := by
  unfold flush
  split <;> rfl

@[simp] theorem current_flush (s : Segments) : s.flush.current = "" := by
  unfold flush
  split
  · next h => exact String.isEmpty_iff.1 h
  · rfl

/-- Says that segments hold what was filled in: the finished parts lay out all but the text of
    the current one, and the style is the nearest. -/
structure Covers (s : Segments) (done : List Filling) : Prop where
  style : s.style = nearestStyle done
  laid : ∃ before own, done = before ++ own ∧ Laid before s.parts ∧ (∀ f ∈ own, f.Plain) ∧
    s.current = String.join (own.map Filling.display)

theorem covers_nil : ({} : Segments).Covers [] := ⟨rfl, [], [], rfl, .nil, by simp, rfl⟩

/-- When the current segment ends, all that was filled in is laid out. -/
theorem Covers.laid_flush (h : s.Covers done) : Laid done s.flush.parts := by
  obtain ⟨hstyle, before, own, rfl, hlaid, hplain, hcurrent⟩ := h
  unfold flush
  by_cases hempty : s.current.isEmpty
  · -- fillings that came to no text are no part
    rw [if_pos hempty]
    have htext : String.join (own.map Filling.display) = "" := by
      rw [← hcurrent, String.isEmpty_iff.1 hempty]
    exact hlaid.blank (shows_nil htext fun f hf => (hplain f hf).front)
  · rw [if_neg hempty, hstyle, nearestStyle_append before fun f hf => (hplain f hf).style]
    refine hlaid.part (hcurrent ▸ shows_text hplain) (.inl ⟨s.current, ?_, rfl⟩) fun f hf =>
      (hplain f hf).style
    exact fun hnil => hempty (String.isEmpty_iff.2 hnil)

theorem Covers.push (h : s.Covers done) (hf : f.Plain) : (s.push f.display).Covers (done ++ [f]) := by
  obtain ⟨hstyle, before, own, rfl, hlaid, hplain, hcurrent⟩ := h
  refine ⟨?_, before, own ++ [f], List.append_assoc .., hlaid, ?_, ?_⟩
  · rw [nearestStyle_append _ (List.forall_mem_singleton.2 hf.style)]
    exact hstyle
  · rw [List.forall_mem_append]
    exact ⟨hplain, List.forall_mem_singleton.2 hf⟩
  · simp [Segments.push, hcurrent]

theorem Covers.setStyle (h : s.Covers done) {css : String} (hf : f.style? = some css) :
    (s.setStyle css).Covers (done ++ [f]) := by
  obtain ⟨hdisplay, hfront⟩ := Filling.of_style? hf
  refine ⟨(nearestStyle_of_style? hf done).symm, done ++ [f], [], (List.append_nil _).symm, ?_, by simp,
    s.current_flush⟩
  exact h.laid_flush.blank (shows_nil (by simp [hdisplay]) (List.forall_mem_singleton.2 hfront))

theorem Covers.pushParameter (h : s.Covers done) {shared : Shared Front} (hf : f.front? = some shared) :
    (s.pushParameter (.front shared)).Covers (done ++ [f]) := by
  obtain ⟨-, hstyle⟩ := Filling.of_front? hf
  refine ⟨?_, done ++ [f], [], (List.append_nil _).symm, ?_, by simp, s.current_flush⟩
  · rw [nearestStyle_append _ (List.forall_mem_singleton.2 hstyle), ← h.style]
    exact s.style_flush
  · -- the front is governed by the style that the segment before it had
    have hlaid := h.laid_flush.part (shows_front hf) (.inr ⟨shared, rfl⟩)
      (List.forall_mem_singleton.2 hstyle)
    rw [← h.style, ← s.style_flush] at hlaid
    exact hlaid

/-- Adding a filling keeps segments as they should be. -/
theorem Covers.add (h : s.Covers done) (f : Filling) : (s.add f).Covers (done ++ [f]) := by
  unfold Segments.add
  cases hstyle : f.style? with
  | some css => exact h.setStyle hstyle
  | none =>
    cases hfront : f.front? with
    | some shared => exact h.pushParameter hfront
    | none => exact h.push ⟨hstyle, hfront⟩

theorem Covers.foldl (h : s.Covers done) (fillings : List Filling) :
    (fillings.foldl Segments.add s).Covers (done ++ fillings) := by
  induction fillings generalizing s done with
  | nil => simpa using h
  | cons f rest ih => simpa using ih (h.add f)

/-- Segments filled in from the start hold all fillings. -/
theorem covers_foldl (fillings : List Filling) :
    (fillings.foldl Segments.add ({} : Segments)).Covers fillings := covers_nil.foldl fillings

end Segments

/-! ### Templates -/

namespace Formatted

/-- An expanded template is made of the parts of its fillings, followed by the arguments that
    no directive takes. -/
theorem exists_parts (template : String) (arguments : List Parameter) :
    let pieces := Template.scan template.toList
    let fillings := Template.fillings pieces arguments
    let rest := arguments.drop (Template.demand pieces)
    ∃ parts, Laid fillings parts ∧
      (expand template arguments).parameters = parts.map Prod.fst ++ rest ∧
      (expand template arguments).styles =
        (if (nearestStyle fillings).isSome then parts.map fun part => part.2.getD "" else []) ∧
      (expand template arguments).text =
        appendTexts (String.join ((parts.map Prod.fst).map Parameter.display)) rest := by
  intro pieces fillings rest
  have hcovers := Segments.covers_foldl fillings
  have hfill : ({} : Segments).fill pieces arguments = (fillings.foldl Segments.add {}, rest) :=
    Segments.fill_eq {} pieces arguments
  refine ⟨(fillings.foldl Segments.add {}).flush.parts, hcovers.laid_flush, ?_⟩
  unfold expand
  rw [hfill, ← hcovers.style, List.map_map]
  exact ⟨rfl, rfl, rfl⟩

/-- A template with styles has one for each of its parts. -/
theorem exists_parts_of_styles {template : String} {arguments : List Parameter}
    (h : (expand template arguments).styles ≠ []) :
    let pieces := Template.scan template.toList
    let rest := arguments.drop (Template.demand pieces)
    ∃ parts, Laid (Template.fillings pieces arguments) parts ∧
      (expand template arguments).parameters = parts.map Prod.fst ++ rest ∧
      (expand template arguments).styles = parts.map (fun part => part.2.getD "") ∧
      (expand template arguments).text =
        appendTexts (String.join ((parts.map Prod.fst).map Parameter.display)) rest := by
  intro pieces rest
  obtain ⟨parts, hlaid, hparameters, hstyles, htext⟩ := exists_parts template arguments
  refine ⟨parts, hlaid, hparameters, ?_, htext⟩
  rw [hstyles] at h ⊢
  split at h
  · next hsome => rw [if_pos hsome]
  · exact absurd rfl h

theorem ofArguments_of_marked {template : String} (h : Template.Marked template.toList)
    (arguments : List Parameter) :
    ofArguments (.text template :: arguments) = expand template arguments :=
  if_pos (Template.isTemplate_iff.2 h)

theorem ofArguments_of_not_marked {template : String} (h : ¬ Template.Marked template.toList)
    (arguments : List Parameter) :
    ofArguments (.text template :: arguments) = plain (.text template :: arguments) :=
  if_neg fun htemplate => h (Template.isTemplate_iff.1 htemplate)

/-- A template in which there is a mark takes the first arguments, as many as its directives
    ask for, each directive the next one. What it shows of them are texts that are not empty
    and the fronts that `%o` and `%O` take, in the order of the arguments; a directive that
    takes nothing is shown as written. The other arguments follow unchanged, and the text goes
    on with each of them after a space unless it is still empty. -/
theorem expansion_in_order {template : String} (h : Template.Marked template.toList)
    (arguments : List Parameter) :
    let pieces := Template.scan template.toList
    let taken := Template.demand pieces
    let fillings := Template.fillings pieces arguments
    let formatted := ofArguments (.text template :: arguments)
    (∀ cut, Template.Cut template.toList cut ↔ cut = pieces) ∧
    fillings.map Filling.piece = pieces ∧
    (∀ before d after, pieces = before ++ .directive d :: after →
      fillings[before.length]? =
        some ⟨.directive d, if d.Consumes then arguments[Template.demand before]? else none⟩) ∧
    fillings.filterMap Filling.argument = arguments.take taken ∧
    ∃ leading,
      formatted.parameters = leading ++ arguments.drop taken ∧
      (∀ p ∈ leading, (∃ value, value ≠ "" ∧ p = .text value) ∨
        ∃ shared, p = .front shared ∧ ∃ filling ∈ fillings, filling.front? = some shared) ∧
      leading.filterMap Parameter.front? = fillings.filterMap Filling.front? ∧
      ((leading.filterMap Parameter.front?).map Parameter.front).Sublist (arguments.take taken) ∧
      String.join (leading.map Parameter.display) = String.join (fillings.map Filling.display) ∧
      (∀ before d after, fillings = before ++ ⟨.directive d, none⟩ :: after →
        String.join (leading.map Parameter.display) =
          String.join (before.map Filling.display) ++ String.ofList d.source ++
            String.join (after.map Filling.display)) ∧
      formatted.text = appendTexts (String.join (leading.map Parameter.display))
        (arguments.drop taken) := by
  intro pieces taken fillings formatted
  have hformatted : formatted = expand template arguments := ofArguments_of_marked h arguments
  obtain ⟨parts, hlaid, hparameters, -, htext⟩ := exists_parts template arguments
  have hshows : Shows fillings (parts.map Prod.fst) := hlaid.shows
  refine ⟨fun cut => Template.cut_iff, Template.piece_fillings pieces arguments, ?_,
    Template.argument_fillings pieces arguments, parts.map Prod.fst, hformatted ▸ hparameters, ?_,
    hshows.fronts.symm, ?_, hshows.text.symm, ?_, hformatted ▸ htext⟩
  · intro before d after hsplit
    simp only [fillings, hsplit]
    exact Template.getElem?_fillings before (.directive d) after arguments
  · intro p hp
    obtain ⟨part, hmem, rfl⟩ := List.mem_map.1 hp
    rcases hlaid.isPart part hmem with htext | ⟨shared, hshared⟩
    · exact .inl htext
    · refine .inr ⟨shared, hshared, ?_⟩
      have hfront : shared ∈ fillings.filterMap Filling.front? := by
        rw [hshows.fronts]
        exact List.mem_filterMap.2 ⟨part.1, hp, by rw [hshared]; rfl⟩
      exact List.mem_filterMap.1 hfront
  · rw [← hshows.fronts]
    exact Template.sublist_front_fillings pieces arguments
  · intro before d after hsplit
    rw [← hshows.text, hsplit, List.map_append, List.map_cons, String.join_append, String.join_cons,
      ← String.append_assoc]
    rfl

/-- A template with a value, a style, a text, an escape and a precision that is too great. -/
def mixed : String := "%o|%c%s%%%.99999d"

/-- The front of a symbol. -/
def symbolFront : Shared Front := ⟨0, .ofGrip {} (.symbol ⟨"s"⟩ none)⟩

/-- The mixed template with two arguments more than it takes. -/
theorem expansion_mixed :
    let arguments : List Parameter :=
      [.front symbolFront, .text "color: red", .text "", .bool true, .text "end"]
    Template.Marked mixed.toList ∧
      ∃ leading, (ofArguments (.text mixed :: arguments)).parameters =
          leading ++ [.bool true, .text "end"] ∧
        leading.filterMap Parameter.front? = [symbolFront] ∧
        (ofArguments (.text mixed :: arguments)).text =
          appendTexts (String.join (leading.map Parameter.display)) [.bool true, .text "end"] := by
  intro arguments
  have hmarked : Template.Marked mixed.toList :=
    ⟨['%', 'o', '|', '%', 'c', '%', 's'], .percent, _, .percent, rfl⟩
  have htaken : Template.demand (Template.scan mixed.toList) = 3 := by decide +kernel
  have hfronts : (Template.fillings (Template.scan mixed.toList) arguments).filterMap
      Filling.front? = [symbolFront] := by decide +kernel
  obtain ⟨-, -, -, -, leading, hparameters, -, hleading, -, -, -, htext⟩ :=
    expansion_in_order hmarked arguments
  rw [htaken] at hparameters htext
  exact ⟨hmarked, leading, hparameters, hleading.trans hfronts, htext⟩

/-- Without a template there are no styles, and a template has none if it takes none. Else
    there is one for each parameter that the template shows: that of the style which starts
    nearest before the content of the parameter, empty before the first. -/
theorem styles_aligned (arguments : List Parameter) :
    let formatted := ofArguments arguments
    ((∀ template rest, arguments = .text template :: rest → ¬ Template.Marked template.toList) →
      formatted.styles = []) ∧
    ∀ template rest, arguments = .text template :: rest → Template.Marked template.toList →
      let pieces := Template.scan template.toList
      let fillings := Template.fillings pieces rest
      ∃ leading, formatted.parameters = leading ++ rest.drop (Template.demand pieces) ∧
        ((∀ filling ∈ fillings, filling.style? = none) → formatted.styles = []) ∧
        ((∃ filling ∈ fillings, filling.style?.isSome) →
          formatted.styles.length = leading.length ∧
          ∀ i p, leading[i]? = some p → p.IsPart ∧
            ∃ before own after, fillings = before ++ own ++ after ∧
              Shows before (leading.take i) ∧ Shows own [p] ∧
              (∀ filling ∈ own, filling.style? = none) ∧
              formatted.styles[i]? = some ((nearestStyle before).getD "")) := by
  intro formatted
  refine ⟨fun hplain => ?_, ?_⟩
  · unfold formatted ofArguments
    split
    · next template rest =>
      rw [if_neg fun htemplate => hplain template rest rfl (Template.isTemplate_iff.1 htemplate)]
      rfl
    · rfl
  · rintro template rest rfl hmarked pieces fillings
    have hformatted : formatted = expand template rest := ofArguments_of_marked hmarked rest
    obtain ⟨parts, hlaid, hparameters, hstyles, -⟩ := exists_parts template rest
    rw [hformatted]
    refine ⟨parts.map Prod.fst, hparameters, fun hnone => ?_, fun hsome => ?_⟩
    · have hnearest : ¬ (nearestStyle fillings).isSome := by
        rw [isSome_nearestStyle]
        rintro ⟨filling, hmem, hsome⟩
        rw [hnone filling hmem] at hsome
        cases hsome
      rw [hstyles, if_neg hnearest]
    · rw [hstyles, if_pos (isSome_nearestStyle.2 hsome)]
      refine ⟨by simp, fun i p hp => ?_⟩
      rw [List.getElem?_map, Option.map_eq_some_iff] at hp
      obtain ⟨part, hpart, rfl⟩ := hp
      obtain ⟨before, own, after, hsplit, hbefore, hown, hstyle, hnearest⟩ := hlaid.exists_own hpart
      refine ⟨hlaid.isPart part (List.mem_of_getElem? hpart), before, own, after, hsplit, ?_, hown,
        hstyle, ?_⟩
      · rw [← List.map_take]
        exact hbefore
      · rw [List.getElem?_map, hpart, Option.map_some, hnearest]

/-- A style whose segment stays empty leaves no trace, whether another follows or not. -/
example :
    let formatted := ofArguments [.text "a%c%cb%s%c", .text "x", .text "y", .text "", .text "z"]
    formatted.parameters = [.text "a", .text "b"] ∧ formatted.styles = ["", "y"] := by
  decide +kernel

end Formatted

end Console
