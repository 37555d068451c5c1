import TraceTables.Text.Visible

/-!
# Literals

A diagnostic that shows a text exactly puts it between double quotes and spells what
would not be seen: tabs, line ends and the null character by their short escapes,
backslashes and double quotes behind a backslash, and every other character that does
not show by itself by its code point in hexadecimal.
-/

namespace TraceTables.Text

/-- The lower-case hexadecimal digits of a number. -/
def hexadecimal (n : Nat) : String :=
  String.ofList (Nat.toDigits 16 n)

/-- The spelling of one character inside a literal. -/
def literalChar (c : Char) : String :=
  match c with
  | '\x00' => "\\0"
  | '\t' => "\\t"
  | '\n' => "\\n"
  | '\r' => "\\r"
  | '"' => "\\\""
  | '\\' => "\\\\"
  | _ =>
    if 0x20 ≤ c.toNat ∧ c.toNat < 0x7F then c.toString
    else if isVisible c then c.toString
    else "\\u\x7b" ++ hexadecimal c.toNat ++ "\x7d"

/-- The literal that shows a text. -/
def literal (text : String) : String :=
  "\"" ++ String.join (text.toList.map literalChar) ++ "\""

end TraceTables.Text
