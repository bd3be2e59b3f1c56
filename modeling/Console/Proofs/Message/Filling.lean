import Console.Message.Formatted
import Console.Proofs.Message.Scan

/-! # Filling in a template

    A template that has been cut takes arguments from the left, one for each directive that
    consumes one, until there are none left. Each piece with the argument that it takes is a
    filling; a template is filled in by adding its fillings one after the other.

    - `Directive.Consumes`: the directives that take an argument,
    - `Template.fillings`: the pieces of a template with their arguments, by position,
    - `argument_fillings`: the arguments that are taken are the first ones, in order,
    - `Segments.fill_eq`: filling in is a fold over the fillings.
-/

namespace Console

/-! ### Directives that take an argument -/

/-- Says that a directive takes an argument if one is left: it has no precision, or one of
    ASCII digits that can be honoured. -/
def Directive.Consumes (d : Directive) : Prop :=
  ∀ digits, d.precision = some digits →
    (∀ c ∈ digits, c.isDigit) ∧ Nat.ofDigitChars 10 digits 0 ≤ greatestPrecision

theorem Directive.isUsable_iff {d : Directive} : d.isUsable ↔ d.Consumes := by
  obtain ⟨precision, k⟩ := d
  cases precision with
  | none => simp [isUsable, Consumes]
  | some digits =>
    have hconsumes : Consumes ⟨some digits, k⟩ ↔
        digits.all Char.isDigit ∧ Nat.ofDigitChars 10 digits 0 ≤ greatestPrecision := by
      simp [Consumes]
    have hvalue : digits.foldl (fun n c => n * 10 + (c.toNat - '0'.toNat)) 0 =
        Nat.ofDigitChars 10 digits 0 := by
      simp only [Nat.ofDigitChars, Nat.mul_comm]
    simp only [hconsumes, isUsable, precisionValue?, hvalue]
    by_cases hdigits : digits.all Char.isDigit
    · by_cases hle : Nat.ofDigitChars 10 digits 0 ≤ greatestPrecision
      · simp [hdigits, hle]
      · simp [hdigits, hle]
    · simp [hdigits]

instance : DecidablePred Directive.Consumes := fun _ => decidable_of_iff _ Directive.isUsable_iff

/-- Says that a piece is a directive that takes an argument. -/
def Piece.Consumes : Piece → Prop
  | directive d => d.Consumes
  | _ => False

instance : DecidablePred Piece.Consumes
  | .char _ => inferInstanceAs (Decidable False)
  | .percent => inferInstanceAs (Decidable False)
  | .directive d => inferInstanceAs (Decidable d.Consumes)

/-! ### Fillings -/

/-- What a directive shows of the argument that it takes. -/
def Directive.showing (d : Directive) (argument : Parameter) : String :=
  match d.conversion with
  | .text => argument.display
  | .integer _ => argument.integerText
  | .float => argument.floatText d.places
  | .value _ => argument.display
  | .style => ""

/-- A piece with the argument that it takes, if it takes one. -/
structure Filling where
  piece : Piece
  argument : Option Parameter

namespace Filling

/-- What a filling adds to the text: a directive that takes nothing is shown as written. -/
def display : Filling → String
  | ⟨.char c, _⟩ => c.toString
  | ⟨.percent, _⟩ => "%"
  | ⟨.directive d, none⟩ => String.ofList d.source
  | ⟨.directive d, some argument⟩ => d.showing argument

/-- The style that starts here: what `%c` takes, or nothing for what is no text. -/
def style? : Filling → Option String
  | ⟨.directive ⟨_, .style⟩, some argument⟩ => some (argument.text?.getD "")
  | _ => none

/-- The front that is shown here as a value of its own: what `%o` and `%O` take. -/
def front? : Filling → Option (Shared Front)
  | ⟨.directive ⟨_, .value _⟩, some argument⟩ => argument.front?
  | _ => none

variable {f : Filling}

/-- A style shows nothing. -/
theorem of_style? {css : String} (h : f.style? = some css) : f.display = "" ∧ f.front? = none := by
  unfold style? at h
  split at h
  · exact ⟨rfl, rfl⟩
  · cases h

/-- A front is shown as a parameter and starts no style. -/
theorem of_front? {shared : Shared Front} (h : f.front? = some shared) :
    f.display = (Parameter.front shared).display ∧ f.style? = none := by
  unfold front? at h
  split at h
  · next argument =>
    cases argument with
    | front other => cases h; exact ⟨rfl, rfl⟩
    | _ => cases h
  · cases h

/-- A front that is shown is the argument. -/
theorem argument_of_front? {shared : Shared Front} (h : f.front? = some shared) :
    f.argument = some (.front shared) := by
  unfold front? at h
  split at h
  · next argument =>
    cases argument with
    | front other => cases h; rfl
    | _ => cases h
  · cases h

end Filling

namespace Template

/-- The number of arguments that pieces take if there are enough. -/
def demand (pieces : List Piece) : Nat := pieces.countP (·.Consumes)

/-- The pieces of a template with the arguments that they take: the first piece that takes
    one has the first argument, the second the second, and those beyond the last have none. -/
def fillings (pieces : List Piece) (arguments : List Parameter) : List Filling :=
  pieces.mapIdx fun i piece =>
    ⟨piece, if piece.Consumes then arguments[demand (pieces.take i)]? else none⟩

variable {piece : Piece} {rest : List Piece}

theorem demand_cons_of_consumes (h : piece.Consumes) : demand (piece :: rest) = demand rest + 1 :=
  List.countP_cons_of_pos (by simpa using h)

theorem demand_cons_of_not_consumes (h : ¬ piece.Consumes) : demand (piece :: rest) = demand rest :=
  List.countP_cons_of_neg (by simpa using h)

/-- A piece that takes an argument leaves the others to the rest. -/
theorem fillings_cons_of_consumes (h : piece.Consumes) (arguments : List Parameter) :
    fillings (piece :: rest) arguments =
      ⟨piece, arguments.head?⟩ :: fillings rest arguments.tail := by
  have hstart : demand [] = 0 := rfl
  simp only [fillings, List.mapIdx_cons, List.take_zero, List.take_succ_cons, hstart,
    demand_cons_of_consumes h, if_pos h, ← List.getElem?_tail, List.head?_eq_getElem?]

/-- A piece that takes none leaves all arguments to the rest. -/
theorem fillings_cons_of_not_consumes (h : ¬ piece.Consumes) (arguments : List Parameter) :
    fillings (piece :: rest) arguments = ⟨piece, none⟩ :: fillings rest arguments := by
  simp only [fillings, List.mapIdx_cons, List.take_succ_cons, demand_cons_of_not_consumes h, if_neg h]

theorem piece_fillings (pieces : List Piece) (arguments : List Parameter) :
    (fillings pieces arguments).map Filling.piece = pieces := by
  induction pieces generalizing arguments with
  | nil => rfl
  | cons piece rest ih =>
    by_cases h : piece.Consumes
    · rw [fillings_cons_of_consumes h, List.map_cons, ih]
    · rw [fillings_cons_of_not_consumes h, List.map_cons, ih]

/-- A piece that takes an argument takes the next after those that the pieces before it ask
    for. -/
theorem getElem?_fillings (before : List Piece) (piece : Piece) (after : List Piece)
    (arguments : List Parameter) :
    (fillings (before ++ piece :: after) arguments)[before.length]? =
      some ⟨piece, if piece.Consumes then arguments[demand before]? else none⟩ := by
  simp [fillings]

/-- The arguments that are taken are the first ones, in order. -/
theorem argument_fillings (pieces : List Piece) (arguments : List Parameter) :
    (fillings pieces arguments).filterMap Filling.argument = arguments.take (demand pieces) := by
  induction pieces generalizing arguments with
  | nil => rfl
  | cons piece rest ih =>
    by_cases h : piece.Consumes
    · rw [fillings_cons_of_consumes h, demand_cons_of_consumes h]
      cases arguments with
      | nil => simp [ih]
      | cons argument arguments => simp [ih]
    · rw [fillings_cons_of_not_consumes h, demand_cons_of_not_consumes h]
      simp [ih]

/-- The fronts that are shown as values of their own are among the arguments that are taken,
    in their order. -/
theorem sublist_front_fillings (pieces : List Piece) (arguments : List Parameter) :
    (((fillings pieces arguments).filterMap Filling.front?).map Parameter.front).Sublist
      (arguments.take (demand pieces)) := by
  rw [← argument_fillings]
  induction fillings pieces arguments with
  | nil => exact .slnil
  | cons f rest ih =>
    cases hfront : f.front? with
    | some shared =>
      simp only [List.filterMap_cons, hfront, Filling.argument_of_front? hfront, List.map_cons]
      exact ih.cons_cons _
    | none =>
      simp only [List.filterMap_cons, hfront]
      cases f.argument with
      | none => exact ih
      | some argument => exact ih.cons argument

end Template

/-! ### Filling in -/

namespace Segments

/-- Adds a filling: a style or a value ends the segment, all else is text. -/
def add (s : Segments) (f : Filling) : Segments :=
  match f.style?, f.front? with
  | some css, _ => s.setStyle css
  | none, some shared => s.pushParameter (.front shared)
  | none, none => s.push f.display

/-- Applying a directive adds it with its argument. -/
theorem apply_eq_add (s : Segments) (d : Directive) (argument : Parameter) :
    s.apply d argument = s.add ⟨.directive d, some argument⟩ := by
  obtain ⟨precision, k⟩ := d
  cases k with
  | value letter =>
    -- only a front is a value of its own
    cases argument <;> rfl
  | _ => rfl

/-- A directive that takes nothing is added as it is written. -/
theorem add_untaken (s : Segments) (d : Directive) :
    s.add ⟨.directive d, none⟩ = s.push (String.ofList d.source) := by
  obtain ⟨precision, k⟩ := d
  cases k <;> rfl

/-- Filling in adds the fillings one after the other, and leaves the arguments that no
    directive takes. -/
theorem fill_eq (s : Segments) (pieces : List Piece) (arguments : List Parameter) :
    s.fill pieces arguments =
      ((Template.fillings pieces arguments).foldl add s, arguments.drop (Template.demand pieces)) := by
  -- each piece adds to the segments and may take an argument, so both are generalized
  induction pieces generalizing s arguments with
  | nil => rfl
  | cons piece rest ih =>
    cases piece with
    | char c =>
      rw [Template.fillings_cons_of_not_consumes id, Template.demand_cons_of_not_consumes id]
      exact ih (s.push c.toString) arguments
    | percent =>
      rw [Template.fillings_cons_of_not_consumes id, Template.demand_cons_of_not_consumes id]
      exact ih (s.push "%") arguments
    | directive d =>
      by_cases h : (Piece.directive d).Consumes
      · have husable : d.isUsable := Directive.isUsable_iff.2 h
        rw [Template.fillings_cons_of_consumes h, Template.demand_cons_of_consumes h]
        cases arguments with
        | nil =>
          simp only [fill, husable, if_true]
          rw [ih, List.drop_nil, List.drop_nil, List.foldl_cons, List.head?_nil, add_untaken]
          rfl
        | cons argument arguments =>
          simp only [fill, husable, if_true]
          rw [ih, apply_eq_add]
          rfl
      · have husable : ¬ d.isUsable := fun husable => h (Directive.isUsable_iff.1 husable)
        rw [Template.fillings_cons_of_not_consumes h, Template.demand_cons_of_not_consumes h]
        simp only [fill, husable, if_false, Bool.false_eq_true]
        rw [ih, List.foldl_cons, add_untaken]

end Segments

end Console
