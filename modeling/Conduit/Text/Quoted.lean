/-
  Conduit/Text/Quoted.lean
  ========================
  **Texts in double quotes.**

  A quoted text can be read by a person and told apart from its surroundings: the
  quote and the backslash are preceded by a backslash, five control characters have
  a letter of their own, and every other hidden character is written as its code
  point in hexadecimal between braces.  All else stands for itself.
-/
import Conduit.Text.Hidden

namespace Conduit.Text

/-- The lower-case hexadecimal digits of a number, without leading zeros. -/
def hexNumber (n : Nat) : String :=
  String.ofList (Nat.toDigits 16 n)

/-- The written form of one character inside quotes. -/
def quotedChar (c : Char) : String :=
  if c.toNat == 0 then "\\0"
  else if c.toNat == 9 then "\\t"
  else if c.toNat == 10 then "\\n"
  else if c.toNat == 13 then "\\r"
  else if c.toNat == 34 then "\\\""
  else if c.toNat == 92 then "\\\\"
  else if isHidden c then "\\u\x7b" ++ hexNumber c.toNat ++ "\x7d"
  else c.toString

/-- A text between double quotes, with hidden characters spelled out. -/
def quote (s : String) : String :=
  "\"" ++ String.join (s.toList.map quotedChar) ++ "\""

/-- An optional text: the quoted text in a `Some`, or `None`. -/
def quoteOption : Option String → String
  | some s => "Some(" ++ quote s ++ ")"
  | none => "None"

end Conduit.Text
