import Console.Text.Unicode

/-! # Templates

    A template is a text with directives: `%s %d %i %f %o %O %c`, each with an optional
    precision (`%.3f`), and the escape `%%`. `Template.scan` cuts a text into its pieces
    from the left, without overlap; any other `%` is an ordinary character.
-/

namespace Console

/-- What a directive does with its argument. -/
inductive Conversion where
  /-- The argument's text: `%s`. -/
  | text
  /-- The integer part of a number: `%d` and `%i`. -/
  | integer (letter : Char)
  /-- A number: `%f`. -/
  | float
  /-- A value of its own: `%o` and `%O`. -/
  | value (letter : Char)
  /-- A style for what follows: `%c`. -/
  | style
  deriving DecidableEq

namespace Conversion

/-- The conversion of a letter. -/
def ofChar? : Char → Option Conversion
  | 's' => some .text
  | 'd' => some (.integer 'd')
  | 'i' => some (.integer 'i')
  | 'f' => some .float
  | 'o' => some (.value 'o')
  | 'O' => some (.value 'O')
  | 'c' => some .style
  | _ => none

/-- The letter of a conversion. -/
def letter : Conversion → Char
  | text => 's'
  | integer letter => letter
  | float => 'f'
  | value letter => letter
  | style => 'c'

end Conversion

/-- A directive as it is written. -/
structure Directive where
  /-- The digits of the precision, of any script. -/
  precision : Option (List Char)
  conversion : Conversion
  deriving DecidableEq

namespace Directive

/-- The characters of the directive. -/
def source (d : Directive) : List Char :=
  '%' :: (d.precision.elim [] ('.' :: ·) ++ [d.conversion.letter])

/-- The greatest precision that can be honoured. -/
def greatestPrecision : Nat := 65535

/-- The number that a precision spells, if its digits are ASCII and it can be honoured. -/
def precisionValue? (digits : List Char) : Option Nat :=
  if digits.all Char.isDigit then
    let n := digits.foldl (fun n c => n * 10 + (c.toNat - '0'.toNat)) 0
    if n ≤ greatestPrecision then some n else none
  else none

/-- Whether the directive takes an argument: its precision, if any, can be honoured. -/
def isUsable (d : Directive) : Bool :=
  match d.precision with
  | none => true
  | some digits => (precisionValue? digits).isSome

/-- The precision to honour. -/
def places (d : Directive) : Option Nat := d.precision.bind precisionValue?

/-- Reads the rest of a directive after its `%`. -/
def read? : List Char → Option (Directive × List Char)
  | [] => none
  | '.' :: rest =>
    match rest.takeWhile Unicode.decimalDigit.contains,
        rest.dropWhile Unicode.decimalDigit.contains with
    | [], _ => none
    | _, [] => none
    | digits, c :: rest => (Conversion.ofChar? c).map fun k => (⟨some digits, k⟩, rest)
  | c :: rest => (Conversion.ofChar? c).map fun k => (⟨none, k⟩, rest)

theorem length_dropWhile_le {α : Type} (p : α → Bool) (xs : List α) :
    (xs.dropWhile p).length ≤ xs.length := by
  induction xs with
  | nil => simp
  | cons x xs ih =>
    rw [List.dropWhile_cons]
    split
    · exact Nat.le_succ_of_le ih
    · exact Nat.le_refl _

/-- A directive takes at least one character. -/
theorem length_read?_lt {text rest : List Char} {d : Directive}
    (h : read? text = some (d, rest)) : rest.length < text.length := by
  unfold read? at h
  split at h
  · cases h
  · next tail =>
    split at h
    · cases h
    · cases h
    · next c after heq _ =>
      obtain ⟨k, -, hk⟩ := Option.map_eq_some_iff.1 h
      cases hk
      have hle := length_dropWhile_le Unicode.decimalDigit.contains tail
      rw [heq] at hle
      simp only [List.length_cons] at hle ⊢
      omega
  · obtain ⟨k, -, hk⟩ := Option.map_eq_some_iff.1 h
    cases hk
    simp

end Directive

/-- A piece of a template. -/
inductive Piece where
  | char (c : Char)
  /-- The escape `%%`. -/
  | percent
  | directive (d : Directive)
  deriving DecidableEq

namespace Template

/-- The pieces of a text, from the left. -/
def scan (text : List Char) : List Piece :=
  match text with
  | [] => []
  | '%' :: '%' :: rest => .percent :: scan rest
  | '%' :: rest =>
    match _h : Directive.read? rest with
    | some (d, after) => .directive d :: scan after
    | none => .char '%' :: scan rest
  | c :: rest => .char c :: scan rest
termination_by text.length
decreasing_by
  · show rest.length < rest.length + 1 + 1
    omega
  · have := Directive.length_read?_lt _h
    show after.length < rest.length + 1
    omega
  · show rest.length < rest.length + 1
    omega
  · show rest.length < rest.length + 1
    omega

/-- Whether a text has a directive or an escape. -/
def isTemplate (text : String) : Bool :=
  (scan text.toList).any fun
    | .char _ => false
    | _ => true

end Template

end Console
