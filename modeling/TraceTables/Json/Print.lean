import TraceTables.Event
import TraceTables.Text.Substitute

/-!
# Writing an event

An event is written on one line without white space, its members in a fixed order. In a
string only the double quote, the backslash and the characters below the space are
escaped, so a written event never holds a line end.
-/

namespace TraceTables.Json

/-- The digit of a number below sixteen, in lower case. -/
def hexDigit (n : Nat) : Char :=
  Char.ofNat (if n < 10 then '0'.toNat + n else 'a'.toNat + (n - 10))

/-- The escape of a character that a string cannot hold as it is. -/
def escape (c : Char) : Option String :=
  match c with
  | '"' => some "\\\""
  | '\\' => some "\\\\"
  | '\x08' => some "\\b"
  | '\t' => some "\\t"
  | '\n' => some "\\n"
  | '\x0c' => some "\\f"
  | '\r' => some "\\r"
  | _ =>
    if c.toNat < 0x20 then
      some (("\\u00".push (hexDigit (c.toNat / 16))).push (hexDigit (c.toNat % 16)))
    else none

/-- A string. -/
def string (text : String) : String :=
  "\"" ++ Text.substitute escape text ++ "\""

/-- An object with the given members, whose values are already written. -/
def object (members : List (String × String)) : String :=
  "\x7b" ++ ",".intercalate (members.map fun member => string member.1 ++ ":" ++ member.2) ++ "\x7d"

/-- The payload of a value. -/
def valuePayload : Value → String
  | .uint64 n => toString n.toNat
  | .string text => string text
  | .bool true => "true"
  | .bool false => "false"

/-- The line that describes an event, without its end. -/
def printEvent (event : Event) : String :=
  match event with
  | .tableBegin kind name =>
    object [(event.word, object [("kind", string kind.word), ("name", string name)])]
  | .columnDeclare type name =>
    object [(event.word, object [("column_type", string type.word), ("name", string name)])]
  | .cellValue value => object [(event.word, object [(value.word, valuePayload value)])]
  | .error message => object [(event.word, object [("message", string message)])]
  | .rowBegin | .rowEnd | .tableEnd => string event.word

end TraceTables.Json
