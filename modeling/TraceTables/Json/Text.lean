import TraceTables.Json.Scan

/-!
# Strings

A string is read one character at a time. Between characters the reader is in one of a
few places: among plain characters, behind a backslash, among the four digits of a
hexadecimal escape, or between the two escapes that make up one character beyond the
first 65536.
-/

namespace TraceTables.Json

/-- Where the reader of a string is. -/
inductive Place where
  | plain
  /-- Behind a backslash. -/
  | escape
  /-- Among the digits of an escape. The four octets after the `u` are taken as they are:
  `due` of them are still to come, and `code` is the value of those read, if all of them
  were digits. `high` is the first half of a pair, if this is the second. -/
  | digits (high : Option Nat) (due : Nat) (code : Option Nat)
  /-- Behind the first half of a pair, where a backslash is due. -/
  | pair (high : Nat)
  /-- Behind that backslash, where a `u` is due. -/
  | pairMark (high : Nat)

/-- The value of a hexadecimal digit. -/
def hexDigit? (c : Char) : Option Nat :=
  if '0' ≤ c ∧ c ≤ '9' then some (c.toNat - '0'.toNat)
  else if 'a' ≤ c ∧ c ≤ 'f' then some (c.toNat - 'a'.toNat + 10)
  else if 'A' ≤ c ∧ c ≤ 'F' then some (c.toNat - 'A'.toNat + 10)
  else none

/-- The character that a backslash followed by the given character stands for. -/
def unescaped? : Char → Option Char
  | '"' => some '"'
  | '\\' => some '\\'
  | '/' => some '/'
  | 'b' => some '\x08'
  | 'f' => some '\x0c'
  | 'n' => some '\n'
  | 'r' => some '\r'
  | 't' => some '\t'
  | _ => none

/-- The value of an escape with one more digit. -/
def extended (code : Option Nat) (c : Char) : Option Nat :=
  code.bind fun value => (hexDigit? c).map fun digit => 16 * value + digit

/-- Whether a code is the first half of a pair. -/
def isHigh (code : Nat) : Bool := 0xD800 ≤ code && code ≤ 0xDBFF

/-- Whether a code is the second half of a pair. -/
def isLow (code : Nat) : Bool := 0xDC00 ≤ code && code ≤ 0xDFFF

/-- The character that a pair stands for. -/
def joined (high low : Nat) : Char :=
  Char.ofNat (0x10000 + (high - 0xD800) * 0x400 + (low - 0xDC00))

/-- Reads on from a place inside a string, up to the closing quote; `done` holds the
characters read so far. -/
def readTextFrom (done : String) (place : Place) :
    List Char → Except Refusal (String × List Char)
  | [] => .error (.here .endInText [])
  | c :: s =>
    match place with
    | .plain =>
      if c = '"' then .ok (done, s)
      else if c = '\\' then readTextFrom done .escape s
      else if c.toNat < 0x20 then .error (.next .controlCharacter (c :: s))
      else readTextFrom (done.push c) .plain s
    | .escape =>
      if c = 'u' then readTextFrom done (.digits none 4 (some 0)) s
      else
        match unescaped? c with
        | some meant => readTextFrom (done.push meant) .plain s
        | none => .error (.next .invalidEscape (c :: s))
    | .digits high due code =>
      if c.utf8Size < due then
        readTextFrom done (.digits high (due - c.utf8Size) (extended code c)) s
      else
        match extended code c, high with
        | none, _ => .error (.within due .invalidEscape (c :: s))
        | some code, none =>
          if isLow code then .error (.here .loneSurrogate s)
          else if isHigh code then readTextFrom done (.pair code) s
          else readTextFrom (done.push (Char.ofNat code)) .plain s
        | some low, some high =>
          if isLow low then readTextFrom (done.push (joined high low)) .plain s
          else .error (.here .loneSurrogate s)
    | .pair high =>
      if c = '\\' then readTextFrom done (.pairMark high) s
      else .error (.next .unfinishedSurrogate (c :: s))
    | .pairMark high =>
      if c = 'u' then readTextFrom done (.digits (some high) 4 (some 0)) s
      else .error (.next .unfinishedSurrogate (c :: s))

theorem length_lt_of_readTextFrom {done text : String} {place : Place} {s rest : List Char}
    (h : readTextFrom done place s = .ok (text, rest)) : rest.length < s.length := by
  induction s generalizing done place with
  | nil => cases h
  | cons c s ih =>
    unfold readTextFrom at h
    repeat' split at h
    all_goals first
      | exact Nat.lt_succ_of_lt (ih h)
      | (cases h; exact Nat.lt_succ_self _)
      | cases h

/-- Reads a string whose opening quote has been read. -/
def readText (s : List Char) : Except Refusal (Found String s.length) :=
  match h : readTextFrom "" .plain s with
  | .ok (text, rest) => .ok ⟨text, rest, length_lt_of_readTextFrom h⟩
  | .error refusal => .error refusal

end TraceTables.Json
