import Console.Proofs.Message.Expansion
import Mathlib.Data.List.Forall2

/-! # Styles have no part in what is shown

    A style stands beside the parameter that it governs. What `%c` takes as a style is looked at
    nowhere else: it changes neither where parts begin and end nor what later directives take.

    - `Filling.Alike`, `Segments.Alike`: two runs that differ in their styles only;
      `Segments.Alike.add` is one step of both and `Segments.Alike.foldl` whole runs,
    - `Template.alike_fillings`: arguments that differ only where `%c` takes them give such runs,
    - `Shows.nearest_unique`: which style governs a part is settled by what is shown up to it,
    - `Formatted.styles_never_shown`: such arguments are shown alike, and two styles differ only
      where a `%c` governs that has taken another argument.
-/

namespace Console

/-! ### Fillings that differ in their styles -/

/-- Says that two fillings differ at most in the style that starts there. -/
structure Filling.Alike (f g : Filling) : Prop where
  display : f.display = g.display
  front : f.front? = g.front?
  style : f.style?.isSome = g.style?.isSome

theorem Filling.Alike.refl (f : Filling) : f.Alike f := ⟨rfl, rfl, rfl⟩

theorem Filling.Alike.style?_eq_none_iff {f g : Filling} (h : f.Alike g) :
    f.style? = none ↔ g.style? = none := by
  rw [← Option.not_isSome_iff_eq_none, ← Option.not_isSome_iff_eq_none, h.style]

/-- Says that segments differ at most in the styles that govern them. -/
structure Segments.Alike (s t : Segments) : Prop where
  parameters : s.parts.map Prod.fst = t.parts.map Prod.fst
  current : s.current = t.current
  style : s.style.isSome = t.style.isSome

namespace Segments.Alike

variable {s t : Segments} {f g : Filling}

theorem flush (h : s.Alike t) : s.flush.Alike t.flush := by
  unfold Segments.flush
  rw [h.current]
  by_cases hempty : t.current.isEmpty
  · rw [if_pos hempty, if_pos hempty]
    exact h
  · rw [if_neg hempty, if_neg hempty]
    refine ⟨?_, rfl, h.style⟩
    rw [List.map_append, List.map_append, h.parameters]
    rfl

theorem push (h : s.Alike t) (text : String) : (s.push text).Alike (t.push text) where
  parameters := h.parameters
  current := by
    show s.current ++ text = t.current ++ text
    rw [h.current]
  style := h.style

/-- Whichever style starts a segment, the one before it ends. -/
theorem setStyle (h : s.Alike t) (css other : String) : (s.setStyle css).Alike (t.setStyle other) where
  parameters := h.flush.parameters
  current := h.flush.current
  style := rfl

theorem pushParameter (h : s.Alike t) (p : Parameter) :
    (s.pushParameter p).Alike (t.pushParameter p) where
  parameters := by
    show (s.flush.parts ++ [(p, s.flush.style)]).map Prod.fst =
      (t.flush.parts ++ [(p, t.flush.style)]).map Prod.fst
    rw [List.map_append, List.map_append, h.flush.parameters]
    rfl
  current := h.flush.current
  style := h.flush.style

/-- Adding fillings that differ in their style keeps segments alike. -/
theorem add (h : s.Alike t) (hf : f.Alike g) : (s.add f).Alike (t.add g) := by
  unfold Segments.add
  cases hcss : f.style? with
  | some css =>
    have hsome : g.style?.isSome := by rw [← hf.style, hcss, Option.isSome_some]
    obtain ⟨other, hother⟩ := Option.isSome_iff_exists.1 hsome
    rw [hother]
    exact h.setStyle css other
  | none =>
    rw [hf.style?_eq_none_iff.1 hcss, hf.front, hf.display]
    cases g.front? with
    | some shared => exact h.pushParameter (.front shared)
    | none => exact h.push g.display

/-- Two runs over such fillings go alike. -/
theorem foldl {fs gs : List Filling} (h : s.Alike t) (hfs : List.Forall₂ Filling.Alike fs gs) :
    (fs.foldl Segments.add s).Alike (gs.foldl Segments.add t) := by
  induction hfs generalizing s t with
  | nil => exact h
  | cons hf _ ih => exact ih (h.add hf)

end Segments.Alike

/-! ### Arguments that differ where styles are taken -/

namespace Template

/-- Says that a `%c` takes the argument at a position. -/
def StyleTakes (pieces : List Piece) (i : Nat) : Prop :=
  ∃ before d after, pieces = before ++ .directive d :: after ∧ d.Consumes ∧
    d.conversion = .style ∧ demand before = i

section styleTakes

variable {piece : Piece} {pieces rest : List Piece} {i : Nat}

theorem StyleTakes.lt_demand (h : StyleTakes pieces i) : i < demand pieces := by
  obtain ⟨before, d, after, rfl, hconsumes, -, rfl⟩ := h
  have hlast : demand (.directive d :: after) = demand after + 1 := demand_cons_of_consumes hconsumes
  have hsum : demand (before ++ .directive d :: after) =
      demand before + demand (.directive d :: after) := by
    unfold demand
    rw [List.countP_append]
  omega

/-- Either the first piece is the `%c`, or the `%c` is further on. -/
theorem StyleTakes.cons_cases (h : StyleTakes (piece :: rest) i) :
    (i = 0 ∧ piece.Consumes ∧ ∃ d, piece = .directive d ∧ d.conversion = .style) ∨
      ∃ j, StyleTakes rest j ∧ i = if piece.Consumes then j + 1 else j := by
  obtain ⟨before, d, after, hsplit, hconsumes, hstyle, rfl⟩ := h
  cases before with
  | nil =>
    obtain ⟨rfl, -⟩ := List.cons.inj hsplit
    exact .inl ⟨rfl, hconsumes, d, rfl, hstyle⟩
  | cons first before =>
    obtain ⟨rfl, rfl⟩ := List.cons.inj hsplit
    refine .inr ⟨demand before, ⟨before, d, after, rfl, hconsumes, hstyle, rfl⟩, ?_⟩
    by_cases hfirst : piece.Consumes
    · rw [demand_cons_of_consumes hfirst, if_pos hfirst]
    · rw [demand_cons_of_not_consumes hfirst, if_neg hfirst]

/-- Only a template takes styles. -/
theorem StyleTakes.marked {template : String} (h : StyleTakes (scan template.toList) i) :
    Marked template.toList := by
  obtain ⟨before, d, after, hsplit, -⟩ := h
  apply isTemplate_iff.1
  unfold isTemplate
  rw [hsplit, List.any_append, List.any_cons, Bool.true_or, Bool.or_true]

end styleTakes

/-- A style that takes another argument is filled in alike. -/
theorem alike_of_style {d : Directive} (h : d.conversion = .style) (x y : Parameter) :
    (Filling.mk (.directive d) (some x)).Alike ⟨.directive d, some y⟩ := by
  obtain ⟨precision, k⟩ := d
  cases h
  exact ⟨rfl, rfl, rfl⟩

/-- Arguments that differ only where `%c` takes them fill in a template alike. -/
theorem alike_fillings {pieces : List Piece} {xs ys : List Parameter}
    (hlength : xs.length = ys.length) (h : ∀ i, xs[i]? ≠ ys[i]? → StyleTakes pieces i) :
    List.Forall₂ Filling.Alike (fillings pieces xs) (fillings pieces ys) := by
  induction pieces generalizing xs ys with
  | nil => exact .nil
  | cons piece rest ih =>
    by_cases hconsumes : piece.Consumes
    · rw [fillings_cons_of_consumes hconsumes, fillings_cons_of_consumes hconsumes]
      refine .cons ?_ (ih (by simp [hlength]) ?_)
      · by_cases hhead : xs.head? = ys.head?
        · rw [hhead]
          exact .refl _
        · -- only a `%c` can have taken different arguments
          rw [List.head?_eq_getElem?, List.head?_eq_getElem?] at hhead
          rcases (h 0 hhead).cons_cases with ⟨-, -, d, rfl, hstyle⟩ | ⟨j, -, hj⟩
          · cases xs with
            | nil =>
              cases ys with
              | nil => exact absurd rfl hhead
              | cons y ys => cases hlength
            | cons x xs =>
              cases ys with
              | nil => cases hlength
              | cons y ys => exact alike_of_style hstyle x y
          · rw [if_pos hconsumes] at hj
            omega
      · intro i hi
        rw [List.getElem?_tail, List.getElem?_tail] at hi
        rcases (h (i + 1) hi).cons_cases with ⟨hzero, -⟩ | ⟨j, hj, hi⟩
        · omega
        · rw [if_pos hconsumes] at hi
          obtain rfl : i = j := by omega
          exact hj
    · rw [fillings_cons_of_not_consumes hconsumes, fillings_cons_of_not_consumes hconsumes]
      refine .cons (.refl _) (ih hlength ?_)
      intro i hi
      rcases (h i hi).cons_cases with ⟨-, hfirst, -⟩ | ⟨j, hj, hi⟩
      · exact absurd hfirst hconsumes
      · rw [if_neg hconsumes] at hi
        exact hi ▸ hj

/-- Such arguments are the same behind those that are taken. -/
theorem drop_demand_eq {pieces : List Piece} {xs ys : List Parameter}
    (h : ∀ i, xs[i]? ≠ ys[i]? → StyleTakes pieces i) :
    xs.drop (demand pieces) = ys.drop (demand pieces) := by
  apply List.ext_getElem?
  intro i
  rw [List.getElem?_drop, List.getElem?_drop]
  by_contra hne
  have hlt := (h _ hne).lt_demand
  omega

end Template

/-! ### The style that governs a part -/

theorem nearestStyle_cons (f : Filling) (fillings : List Filling) :
    nearestStyle (f :: fillings) = (nearestStyle fillings).or f.style? := by
  unfold nearestStyle
  cases hstyle : f.style? with
  | none => rw [List.filterMap_cons_none hstyle, Option.or_none]
  | some css =>
    rw [List.filterMap_cons_some hstyle, List.getLast?_cons]
    cases (fillings.filterMap Filling.style?).getLast? <;> rfl

/-- Where fillings that are alike have different nearest styles, these start at one place. -/
theorem exists_of_nearestStyle_ne {fs gs : List Filling} (h : List.Forall₂ Filling.Alike fs gs)
    (hne : nearestStyle fs ≠ nearestStyle gs) :
    ∃ before f later g, fs = before ++ f :: later ∧ gs[before.length]? = some g ∧
      f.style? ≠ g.style? ∧ f.style?.isSome ∧ ∀ other ∈ later, other.style? = none := by
  induction h with
  | nil => exact absurd rfl hne
  | @cons f g fs gs hf _ ih =>
    by_cases hrest : nearestStyle fs = nearestStyle gs
    · rw [nearestStyle_cons, nearestStyle_cons, ← hrest] at hne
      -- a style further on would have been nearer in both
      have hnone : nearestStyle fs = none := by
        cases hsome : nearestStyle fs with
        | none => rfl
        | some css =>
          rw [hsome] at hne
          exact absurd rfl hne
      rw [hnone, Option.none_or, Option.none_or] at hne
      refine ⟨[], f, fs, g, rfl, rfl, hne, ?_, ?_⟩
      · rw [← Option.ne_none_iff_isSome]
        intro hf'
        exact hne (hf'.trans (hf.style?_eq_none_iff.1 hf').symm)
      · intro other hother
        by_contra hstyle
        have hsome : (nearestStyle fs).isSome :=
          isSome_nearestStyle.2 ⟨other, hother, Option.ne_none_iff_isSome.1 hstyle⟩
        rw [hnone] at hsome
        cases hsome
    · obtain ⟨before, f', later, g', rfl, hg, hstyles⟩ := ih hrest
      exact ⟨f :: before, f', later, g', rfl, hg, hstyles⟩

section shows

variable {before own after before' own' after' fs gs : List Filling} {shown : List Parameter}
  {p : Parameter}

/-- A part does not come from fillings that show nothing. -/
theorem Shows.not_nil (h : Shows own [p]) (hp : p.IsPart) : ¬ Shows own [] := by
  intro hnil
  rcases hp with ⟨value, hvalue, rfl⟩ | ⟨shared, rfl⟩
  · have htext := h.text.symm.trans hnil.text
    simp [Parameter.display] at htext
    exact hvalue htext
  · have hfronts := h.fronts.symm.trans hnil.fronts
    simp [Parameter.front?] at hfronts

/-- What is added to fillings without changing what they show, shows nothing. -/
theorem Shows.nil_of_append (h : Shows before shown) (h' : Shows (before ++ own) shown) :
    Shows own [] where
  text := by
    have htext := h'.text.trans h.text.symm
    rw [List.map_append, String.join_append] at htext
    simpa using htext
  fronts := by
    have hfronts := h'.fronts.trans h.fronts.symm
    rw [List.filterMap_append] at hfronts
    simpa using hfronts

theorem Shows.nil_left (h : Shows (own ++ after) []) : Shows own [] where
  text := by
    have htext := h.text
    rw [List.map_append, String.join_append] at htext
    exact (String.append_eq_empty_iff.1 htext).1
  fronts := by
    have hfronts := h.fronts
    rw [List.filterMap_append] at hfronts
    exact (List.append_eq_nil_iff.1 hfronts).1

/-- Where a part can begin in two places, no style starts between them: the part itself would
    lie there. -/
theorem Shows.exists_between (hsplit : before ++ own ++ after = before' ++ own' ++ after')
    (hle : before.length ≤ before'.length) (hbefore : Shows before shown)
    (hbefore' : Shows before' shown) (hown : Shows own [p]) (hp : p.IsPart)
    (hstyle : ∀ f ∈ own, f.style? = none) :
    ∃ between, before' = before ++ between ∧ ∀ f ∈ between, f.style? = none := by
  have hprefix : before <+: before ++ own ++ after := ⟨own ++ after, (List.append_assoc ..).symm⟩
  have hprefix' : before' <+: before ++ own ++ after :=
    ⟨own' ++ after', by rw [hsplit, List.append_assoc]⟩
  obtain ⟨between, rfl⟩ := List.prefix_of_prefix_length_le hprefix hprefix' hle
  refine ⟨between, rfl, ?_⟩
  have hrest : own ++ after = between ++ (own' ++ after') := by simpa using hsplit
  rcases List.append_eq_append_iff.1 hrest with ⟨others, rfl, -⟩ | ⟨others, rfl, -⟩
  · exact absurd (hbefore.nil_of_append hbefore').nil_left (hown.not_nil hp)
  · intro f hf
    exact hstyle f (List.mem_append_left _ hf)

/-- Which style governs a part is settled by what is shown up to it. -/
theorem Shows.nearest_unique (hsplit : before ++ own ++ after = before' ++ own' ++ after')
    (hbefore : Shows before shown) (hbefore' : Shows before' shown) (hown : Shows own [p])
    (hown' : Shows own' [p]) (hp : p.IsPart) (hstyle : ∀ f ∈ own, f.style? = none)
    (hstyle' : ∀ f ∈ own', f.style? = none) : nearestStyle before = nearestStyle before' := by
  rcases Nat.le_total before.length before'.length with hle | hle
  · obtain ⟨between, rfl, hnone⟩ := hbefore.exists_between hsplit hle hbefore' hown hp hstyle
    exact (nearestStyle_append before hnone).symm
  · obtain ⟨between, rfl, hnone⟩ :=
      hbefore'.exists_between hsplit.symm hle hbefore hown' hp hstyle'
    exact nearestStyle_append before' hnone

/-- Fillings that are alike read the same. -/
theorem Shows.of_alike (h : Shows fs shown) (halike : List.Forall₂ Filling.Alike fs gs) :
    Shows gs shown := by
  have hsame : fs.map Filling.display = gs.map Filling.display ∧
      fs.filterMap Filling.front? = gs.filterMap Filling.front? := by
    clear h
    induction halike with
    | nil => exact ⟨rfl, rfl⟩
    | cons hf _ ih =>
      rw [List.map_cons, List.map_cons, List.filterMap_cons, List.filterMap_cons, hf.display,
        hf.front, ih.1, ih.2]
      exact ⟨rfl, rfl⟩
  exact ⟨hsame.1 ▸ h.text, hsame.2 ▸ h.fronts⟩

theorem style?_eq_none_of_alike (halike : List.Forall₂ Filling.Alike fs gs)
    (h : ∀ f ∈ fs, f.style? = none) : ∀ g ∈ gs, g.style? = none := by
  induction halike with
  | nil => exact h
  | cons hf _ ih =>
    obtain ⟨hfirst, hrest⟩ := List.forall_mem_cons.1 h
    exact List.forall_mem_cons.2 ⟨hf.style?_eq_none_iff.1 hfirst, ih hrest⟩

end shows

/-- Fillings that are alike can be split alike. -/
theorem exists_append_of_alike {fs own gs : List Filling}
    (h : List.Forall₂ Filling.Alike (fs ++ own) gs) :
    ∃ before after, gs = before ++ after ∧ List.Forall₂ Filling.Alike fs before ∧
      List.Forall₂ Filling.Alike own after := by
  refine ⟨gs.take fs.length, gs.drop fs.length, (List.take_append_drop ..).symm, ?_, ?_⟩
  · simpa using List.forall₂_take fs.length h
  · simpa using List.forall₂_drop fs.length h

/-- In two layouts of one content, each part has one place, and the styles are the nearest ones
    before it. -/
theorem Laid.exists_place {fs gs : List Filling} {parts others : List (Parameter × Option String)}
    (halike : List.Forall₂ Filling.Alike fs gs) (hparts : Laid fs parts) (hothers : Laid gs others)
    (hsame : parts.map Prod.fst = others.map Prod.fst) {j : Nat} {part other : Parameter × Option String}
    (hpart : parts[j]? = some part) (hother : others[j]? = some other) :
    ∃ before own after before' rest, fs = before ++ own ++ after ∧ gs = before' ++ rest ∧
      List.Forall₂ Filling.Alike before before' ∧
      Shows before ((parts.map Prod.fst).take j) ∧ Shows own [part.1] ∧
      (∀ f ∈ own, f.style? = none) ∧
      part.2 = nearestStyle before ∧ other.2 = nearestStyle before' := by
  obtain ⟨before, own, after, hsplit, hbefore, hown, hstyle, hnearest⟩ := hparts.exists_own hpart
  obtain ⟨before', own', after', hsplit', hbefore', hown', hstyle', hnearest'⟩ :=
    hothers.exists_own hother
  have hfirst : part.1 = other.1 := by
    have hat := congrArg (fun parameters => parameters[j]?) hsame
    simpa [hpart, hother] using hat
  rw [List.map_take] at hbefore hbefore'
  rw [← hsame] at hbefore'
  rw [← hfirst] at hown'
  -- the place of the part among the one fillings is a place of it among the others too
  have hsides := halike
  rw [hsplit, List.append_assoc] at hsides
  obtain ⟨before'', rest, hrest, hbefores, hsides⟩ := exists_append_of_alike hsides
  obtain ⟨own'', after'', rfl, howns, -⟩ := exists_append_of_alike hsides
  have hplaces : before'' ++ own'' ++ after'' = before' ++ own' ++ after' := by
    rw [List.append_assoc, ← hrest, hsplit']
  have hunique : nearestStyle before'' = nearestStyle before' :=
    Shows.nearest_unique hplaces (hbefore.of_alike hbefores) hbefore' (hown.of_alike howns) hown'
      (hparts.isPart part (List.mem_of_getElem? hpart)) (style?_eq_none_of_alike howns hstyle) hstyle'
  exact ⟨before, own, after, before'', own'' ++ after'', hsplit, hrest, hbefores, hbefore, hown,
    hstyle, hnearest, hnearest'.trans hunique.symm⟩

/-! ### The argument that a style comes from -/

namespace Template

variable {pieces : List Piece} {xs : List Parameter} {before after : List Filling} {f : Filling}

/-- The filling at one place of a template, whatever the arguments are. -/
theorem getElem?_fillings_of_split (h : fillings pieces xs = before ++ f :: after)
    (ys : List Parameter) :
    (fillings pieces ys)[before.length]? =
      some ⟨f.piece, if f.piece.Consumes then ys[demand (before.map Filling.piece)]? else none⟩ := by
  have hpieces : pieces = before.map Filling.piece ++ f.piece :: after.map Filling.piece := by
    rw [← piece_fillings pieces xs, h, List.map_append, List.map_cons]
  have hat := getElem?_fillings (before.map Filling.piece) f.piece (after.map Filling.piece) ys
  rwa [← hpieces, List.length_map] at hat

/-- Two fillings at one place differ only if other arguments were taken there. -/
theorem argument_ne_of_fillings {ys : List Parameter} {g : Filling}
    (hf : fillings pieces xs = before ++ f :: after)
    (hg : (fillings pieces ys)[before.length]? = some g) (hne : f ≠ g) :
    xs[demand (before.map Filling.piece)]? ≠ ys[demand (before.map Filling.piece)]? := by
  intro hargument
  have hf' := getElem?_fillings_of_split hf xs
  have hg' := getElem?_fillings_of_split hf ys
  rw [← hargument, ← hf', hg, hf, List.getElem?_append_right (Nat.le_refl _), Nat.sub_self,
    List.getElem?_cons_zero] at hg'
  exact hne (Option.some.inj hg').symm

end Template

/-- Says that the `%c` which takes the argument at position `i` governs the leading parameter at
    `j`: no style starts between it and the content of that parameter. -/
def Governs (fillings : List Filling) (leading : List Parameter) (i j : Nat) : Prop :=
  ∃ before f between own after p, fillings = before ++ f :: between ++ own ++ after ∧
    f.style?.isSome ∧ Template.demand (before.map Filling.piece) = i ∧
    leading[j]? = some p ∧ Shows (before ++ f :: between) (leading.take j) ∧ Shows own [p] ∧
    ∀ other ∈ between ++ own, other.style? = none

/-- Where two layouts of one content differ in a style, the `%c` that governs the part has taken
    another argument. -/
theorem Laid.exists_governs {pieces : List Piece} {xs ys : List Parameter}
    {parts others : List (Parameter × Option String)}
    (halike : List.Forall₂ Filling.Alike (Template.fillings pieces xs) (Template.fillings pieces ys))
    (hparts : Laid (Template.fillings pieces xs) parts)
    (hothers : Laid (Template.fillings pieces ys) others)
    (hsame : parts.map Prod.fst = others.map Prod.fst) {j : Nat} {part other : Parameter × Option String}
    (hpart : parts[j]? = some part) (hother : others[j]? = some other) (hne : part.2 ≠ other.2) :
    ∃ i, xs[i]? ≠ ys[i]? ∧ Governs (Template.fillings pieces xs) (parts.map Prod.fst) i j := by
  obtain ⟨before, own, after, before', rest, hsplit, hsplit', hbefores, hbefore, hown, hstyle, hpart',
    hother'⟩ := hparts.exists_place halike hothers hsame hpart hother
  rw [hpart', hother'] at hne
  obtain ⟨first, f, later, g, rfl, hg, hfg, hsome, hlater⟩ := exists_of_nearestStyle_ne hbefores hne
  have hleading : (parts.map Prod.fst)[j]? = some part.1 := by rw [List.getElem?_map, hpart]; rfl
  refine ⟨Template.demand (first.map Filling.piece), ?_, first, f, later, own, after, part.1, hsplit,
    hsome, rfl, hleading, hbefore, hown, List.forall_mem_append.2 ⟨hlater, hstyle⟩⟩
  have hf : Template.fillings pieces xs = first ++ f :: (later ++ own ++ after) := by
    rw [hsplit]
    simp
  have hlt : first.length < before'.length := (List.getElem?_eq_some_iff.1 hg).1
  have hg' : (Template.fillings pieces ys)[first.length]? = some g := by
    rw [hsplit', List.getElem?_append_left hlt, hg]
  exact Template.argument_ne_of_fillings hf hg' fun heq => hfg (congrArg Filling.style? heq)

/-! ### What styles leave as it is -/

/-- Segments that are alike are finished with the same parameters and text, and as many
    styles. -/
theorem Segments.Alike.finish {s t : Segments} (h : s.Alike t) :
    s.finish.parameters = t.finish.parameters ∧ s.finish.text = t.finish.text ∧
      s.finish.styles.length = t.finish.styles.length := by
  have hparameters := h.flush.parameters
  have hlength : s.flush.parts.length = t.flush.parts.length := by
    simpa using congrArg List.length hparameters
  refine ⟨hparameters, ?_, ?_⟩
  · show String.join (s.flush.parts.map fun part => part.1.display) =
      String.join (t.flush.parts.map fun part => part.1.display)
    have htexts := congrArg (List.map Parameter.display) hparameters
    rw [List.map_map, List.map_map] at htexts
    exact congrArg String.join htexts
  · unfold Segments.finish
    simp only [h.style]
    split
    · simpa using hlength
    · rfl

namespace Formatted

section alike

variable {template : String} {xs ys : List Parameter}
  (halike : List.Forall₂ Filling.Alike (Template.fillings (Template.scan template.toList) xs)
    (Template.fillings (Template.scan template.toList) ys))
  (hrest : xs.drop (Template.demand (Template.scan template.toList)) =
    ys.drop (Template.demand (Template.scan template.toList)))

include halike hrest

/-- Arguments that fill in a template alike and leave the same others are shown alike. -/
theorem expand_alike :
    (expand template xs).parameters = (expand template ys).parameters ∧
      (expand template xs).text = (expand template ys).text ∧
      (expand template xs).styles.length = (expand template ys).styles.length := by
  have hstart : ({} : Segments).Alike {} := ⟨rfl, rfl, rfl⟩
  obtain ⟨hparameters, htext, hstyles⟩ := (hstart.foldl halike).finish
  unfold expand
  rw [Segments.fill_eq, Segments.fill_eq, hrest]
  simp only [hparameters, htext, hstyles, and_self]

/-- Where two such expansions have different styles, the `%c` that governs the parameter there
    has taken another argument. -/
theorem exists_governs_of_styles_ne :
    ∃ leading, (expand template xs).parameters =
        leading ++ xs.drop (Template.demand (Template.scan template.toList)) ∧
      ∀ j, (expand template xs).styles[j]? ≠ (expand template ys).styles[j]? →
        ∃ i, xs[i]? ≠ ys[i]? ∧
          Governs (Template.fillings (Template.scan template.toList) xs) leading i j := by
  obtain ⟨hparameters, -, hlength⟩ := expand_alike halike hrest
  have hnil : (expand template xs).styles = [] ↔ (expand template ys).styles = [] := by
    rw [← List.length_eq_zero_iff, ← List.length_eq_zero_iff, hlength]
  by_cases hempty : (expand template xs).styles = []
  · obtain ⟨parts, -, hleading, -, -⟩ := exists_parts template xs
    refine ⟨parts.map Prod.fst, hleading, fun j hne => ?_⟩
    rw [hempty, hnil.1 hempty] at hne
    exact absurd rfl hne
  · -- with styles in both, each part has its own
    obtain ⟨parts, hlaid, hleading, hstyles, -⟩ := exists_parts_of_styles hempty
    obtain ⟨others, hlaid', hleading', hstyles', -⟩ := exists_parts_of_styles (mt hnil.2 hempty)
    have hsame : parts.map Prod.fst = others.map Prod.fst := by
      rw [hleading, hleading', hrest] at hparameters
      exact List.append_cancel_right hparameters
    have hcount : parts.length = others.length := by simpa using congrArg List.length hsame
    refine ⟨parts.map Prod.fst, hleading, fun j hne => ?_⟩
    rw [hstyles, hstyles', List.getElem?_map, List.getElem?_map] at hne
    by_cases hj : j < parts.length
    · have hpart : parts[j]? = some parts[j] := List.getElem?_eq_getElem hj
      have hother : others[j]? = some others[j] := List.getElem?_eq_getElem (hcount ▸ hj)
      refine hlaid.exists_governs halike hlaid' hsame hpart hother ?_
      intro heq
      rw [hpart, hother, Option.map_some, Option.map_some, heq] at hne
      exact hne rfl
    · have hle : parts.length ≤ j := Nat.le_of_not_lt hj
      rw [List.getElem?_eq_none hle, List.getElem?_eq_none (hcount ▸ hle)] at hne
      exact absurd rfl hne

end alike

/-- Arguments that differ only where `%c` takes them, however they differ there, are shown alike:
    with the same text and the same parameters, and with as many styles. Two styles at one place
    differ only where the `%c` that governs the parameter there has taken another argument. -/
theorem styles_never_shown (template : String) {xs ys : List Parameter}
    (hlength : xs.length = ys.length)
    (hstyle : ∀ i, xs[i]? ≠ ys[i]? → Template.StyleTakes (Template.scan template.toList) i) :
    let pieces := Template.scan template.toList
    let x := ofArguments (.text template :: xs)
    let y := ofArguments (.text template :: ys)
    x.text = y.text ∧ x.parameters = y.parameters ∧ x.styles.length = y.styles.length ∧
    ∃ leading, x.parameters = leading ++ xs.drop (Template.demand pieces) ∧
      ∀ j, x.styles[j]? ≠ y.styles[j]? →
        ∃ i, xs[i]? ≠ ys[i]? ∧ Governs (Template.fillings pieces xs) leading i j := by
  intro pieces x y
  by_cases hmarked : Template.Marked template.toList
  · have halike := Template.alike_fillings hlength hstyle
    have hrest := Template.drop_demand_eq hstyle
    have hx : x = expand template xs := ofArguments_of_marked hmarked xs
    have hy : y = expand template ys := ofArguments_of_marked hmarked ys
    obtain ⟨hparameters, htext, hstyles⟩ := expand_alike halike hrest
    rw [hx, hy]
    exact ⟨htext, hparameters, hstyles, exists_governs_of_styles_ne halike hrest⟩
  · -- without a template no argument is taken, so none differs
    obtain rfl : xs = ys := by
      apply List.ext_getElem?
      intro i
      by_contra hne
      exact hmarked (hstyle i hne).marked
    have hx : x = plain (.text template :: xs) := ofArguments_of_not_marked hmarked xs
    refine ⟨rfl, rfl, rfl, .text template :: xs.take (Template.demand pieces), ?_, ?_⟩
    · rw [hx, List.cons_append, List.take_append_drop]
      rfl
    · intro j hne
      exact absurd rfl hne

/-- Two styles of a template, each replaced by or replacing a value that is no text. -/
theorem styles_never_shown_exchanged :
    let template := "%cA%s%cB%o"
    let xs : List Parameter :=
      [.text "color: red", .text "x", .bool true, .front symbolFront, .text "left"]
    let ys : List Parameter :=
      [.literal .null, .text "x", .text "color: blue", .front symbolFront, .text "left"]
    xs.length = ys.length ∧
      (∀ i, xs[i]? ≠ ys[i]? → Template.StyleTakes (Template.scan template.toList) i) ∧
      (ofArguments (.text template :: xs)).text = (ofArguments (.text template :: ys)).text ∧
      (ofArguments (.text template :: xs)).parameters =
        (ofArguments (.text template :: ys)).parameters ∧
      (ofArguments (.text template :: xs)).styles = ["color: red", "", ""] ∧
      (ofArguments (.text template :: ys)).styles = ["", "color: blue", "color: blue"] := by
  intro template xs ys
  have hscan : Template.scan template.toList =
      [.directive ⟨none, .style⟩, .char 'A', .directive ⟨none, .text⟩, .directive ⟨none, .style⟩,
        .char 'B', .directive ⟨none, .value 'o'⟩] := by decide +kernel
  have hstyle : ∀ i, xs[i]? ≠ ys[i]? → Template.StyleTakes (Template.scan template.toList) i := by
    intro i hne
    rw [hscan]
    match i with
    | 0 => exact ⟨[], ⟨none, .style⟩, _, rfl, by decide, rfl, rfl⟩
    | 2 =>
      exact ⟨[.directive ⟨none, .style⟩, .char 'A', .directive ⟨none, .text⟩], ⟨none, .style⟩, _, rfl,
        by decide, rfl, by decide⟩
    | 1 | 3 | 4 => exact absurd rfl hne
    | i + 5 => exact absurd rfl hne
  obtain ⟨htext, hparameters, -⟩ := @styles_never_shown template xs ys rfl hstyle
  exact ⟨rfl, hstyle, htext, hparameters, by decide +kernel, by decide +kernel⟩

end Formatted

end Console
