import TraceTables.Json.Number
import TraceTables.Json.Text

/-!
# Typed values

Readers for the values that events hold: texts, truth values, natural numbers and the
null that stands for no payload. A value of another type is named in the refusal; if it
is a scalar it is read first, so that its own faults come before the wrong type.
-/

namespace TraceTables.Json

/-- The refusal of the value at the start of `s`, where another was wanted. -/
def mismatch (wanted : Wanted) (s : List Char) : Refusal :=
  let found (met : Met) (rest : List Char) : Refusal := .here (.mismatch met wanted) rest
  let named (due : List Char) (met : Met) (rest : List Char) : Refusal :=
    match readLetters due rest with
    | .ok rest => found met rest
    | .error refusal => refusal
  match s with
  | [] => .here .endInValue []
  | 'n' :: rest => named ['u', 'l', 'l'] .null rest
  | 't' :: rest => named ['r', 'u', 'e'] (.bool true) rest
  | 'f' :: rest => named ['a', 'l', 's', 'e'] (.bool false) rest
  | '"' :: rest =>
    match readText rest with
    | .ok text => found (.text text.value) text.rest
    | .error refusal => refusal
  | '[' :: rest => found .list ('[' :: rest)
  | '{' :: rest => found .object ('{' :: rest)
  | _ =>
    if numberNext s then
      match readNumber s with
      | .ok number => found number.value.met number.rest
      | .error refusal => refusal
    else .next .expectedValue s

/-- A reader that skips the white space in front. -/
def afterSpace {α : Type} (read : Reader α) : Reader α := fun s =>
  (read (skipSpace s)).map (·.weaken (length_skipSpace_le s))

/-- Reads the letters of a literal name behind its first one. -/
def readName {α : Type} (due : List Char) (value : α) (s : List Char) :
    Except Refusal (Found α (s.length + 1)) :=
  match letters : readLetters due s with
  | .ok rest => .ok ⟨value, rest, Nat.lt_succ_of_le (length_le_of_readLetters letters)⟩
  | .error refusal => .error refusal

/-- Reads the null that stands for no payload. -/
def readNull {α : Type} (value : α) : Reader α := afterSpace fun
  | 'n' :: rest => readName ['u', 'l', 'l'] value rest
  | s => .error (mismatch .null s)

/-- Reads a truth value. -/
def readBool : Reader Bool := afterSpace fun
  | 't' :: rest => readName ['r', 'u', 'e'] true rest
  | 'f' :: rest => readName ['a', 'l', 's', 'e'] false rest
  | s => .error (mismatch .bool s)

/-- Reads a string. -/
def readString : Reader String := afterSpace fun
  | '"' :: rest => (readText rest).map (·.behind '"')
  | s => .error (mismatch .text s)

/-- Reads a natural number of 64 bits. -/
def readUInt64 : Reader UInt64 := afterSpace fun s =>
  if numberNext s then
    match readNumber s with
    | .ok ⟨.natural n, rest, h⟩ => .ok ⟨n, rest, h⟩
    | .ok ⟨.negative magnitude, rest, _⟩ => .error (.here (.belowZero (-magnitude)) rest)
    | .ok ⟨.real x, rest, _⟩ => .error (.here (.mismatch (Number.real x).met .uint64) rest)
    | .error refusal => .error refusal
  else .error (mismatch .uint64 s)

end TraceTables.Json
