import Console.Text.Unicode

/-! # Quoted text

    `quoted` writes a text between double quotes so that every character can be
    seen: the quote, the backslash and four controls have escapes of their own,
    and every concealed character is written as its code point.
-/

namespace Console

/-- A character that White_Space lists. -/
def isBlank (c : Char) : Bool := Unicode.blank.contains c

/-- A character that quoted text writes as its code point. -/
def isConcealed (c : Char) : Bool :=
  c.toNat < 0x20 || c.toNat == 0x7F || (0x80 ≤ c.toNat && Unicode.concealed.contains c)

/-- The lower-case hexadecimal digits of `n`, without leading zeros. -/
def hexText (n : Nat) : String := String.ofList (Nat.toDigits 16 n)

/-- One character of a quoted text. -/
def quotedChar (c : Char) : String :=
  match c with
  | '\x00' => "\\0"
  | '\t' => "\\t"
  | '\r' => "\\r"
  | '\n' => "\\n"
  | '"' => "\\\""
  | '\\' => "\\\\"
  | c => if isConcealed c then "\\u\x7b" ++ hexText c.toNat ++ "\x7d" else c.toString

/-- The text between double quotes, with every character visible. -/
def quoted (s : String) : String :=
  "\"" ++ String.join (s.toList.map quotedChar) ++ "\""

end Console
