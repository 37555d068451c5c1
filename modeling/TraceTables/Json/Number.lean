import TraceTables.Decimal.Layout
import TraceTables.Json.Scan

/-!
# Numbers

A number without fraction and exponent that fits 64 bits is an integer; `-0` and all
others are floating-point numbers. Those take the first digits that fit 64 bits and scale
them by a power of ten, so that the last bit need not be the nearest one.
-/

namespace TraceTables.Json

/-- A number as read. -/
inductive Number where
  | natural (n : UInt64)
  /-- An integer below zero, by its magnitude. -/
  | negative (magnitude : Nat)
  | real (x : Float)

/-- Numbers are printed positionally from a hundred-thousandth up to sixteen digits. -/
def numberLayout : Decimal.Layout := ⟨-5, 15⟩

/-- How a number is named in a refusal. -/
def Number.met : Number → Met
  | .natural n => .integer n.toNat
  | .negative magnitude => .integer (-magnitude)
  | .real x => .real (numberLayout.render x)

/-- The characters after a part of `s`. -/
abbrev Tail (s : List Char) := { rest : List Char // rest.length ≤ s.length }

/-- A run of digits: the number they extend, how many were taken, and what follows. -/
structure Digits (s : List Char) where
  number : Nat
  taken : Nat
  rest : Tail s

/-- Takes digits behind the number read so far as long as the result is at most `limit`. -/
def takeDigits (limit number taken : Nat) {s : List Char} (tail : Tail s) : Digits s :=
  match tail with
  | ⟨[], h⟩ => ⟨number, taken, [], h⟩
  | ⟨c :: rest, h⟩ =>
    let larger := 10 * number + (c.toNat - '0'.toNat)
    if c.isDigit ∧ larger ≤ limit then
      takeDigits limit larger (taken + 1) ⟨rest, Nat.le_of_succ_le h⟩
    else ⟨number, taken, c :: rest, h⟩
termination_by tail.val.length

/-- What follows the digits at the start. -/
def Tail.dropDigits {s : List Char} (tail : Tail s) : Tail s :=
  ⟨tail.val.dropWhile Char.isDigit,
    Nat.le_trans (length_dropWhile_le Char.isDigit tail.val) tail.property⟩

/-- Whether a digit comes next. -/
def digitNext : List Char → Bool
  | [] => false
  | c :: _ => c.isDigit

/-- Multiplies by a power of ten, in as many steps as the exponents of floating-point
numbers need; `none` if the result is too large for them. -/
def scaleByTen (x : Float) (exponent : Int) : Option Float :=
  let power (n : Nat) : Float := Float.ofScientific 1 false n
  if exponent.natAbs ≤ 308 then
    if 0 ≤ exponent then
      let scaled := x * power exponent.natAbs
      if scaled.isInf then none else some scaled
    else some (x / power exponent.natAbs)
  else if x == 0 then some x
  else if 0 ≤ exponent then none
  else scaleByTen (x / power 308) (exponent + 308)
termination_by (-exponent).toNat
decreasing_by omega

/-- The floating-point number with this sign, these digits and this exponent. -/
def assemble (minus : Bool) (digits : Nat) (exponent : Int) {s : List Char} (rest : Tail s) :
    Except Refusal (Number × Tail s) :=
  match scaleByTen (UInt64.ofNat digits).toFloat exponent with
  | some x => .ok (.real (if minus then -x else x), rest)
  | none => .error (.here .numberOutOfRange rest.val)

/-- Reads an exponent, from behind its letter. An exponent beyond 32 bits makes the number
zero or puts it out of range. -/
def readExponent (minus : Bool) (digits : Nat) (start : Int) {s : List Char} (tail : Tail s) :
    Except Refusal (Number × Tail s) :=
  let (down, tail) : Bool × Tail s :=
    match tail with
    | ⟨'+' :: rest, h⟩ => (false, ⟨rest, Nat.le_of_succ_le h⟩)
    | ⟨'-' :: rest, h⟩ => (true, ⟨rest, Nat.le_of_succ_le h⟩)
    | other => (false, other)
  match tail with
  | ⟨[], _⟩ => .error (.here .endInValue [])
  | ⟨c :: rest, h⟩ =>
    if c.isDigit then
      let power := takeDigits (0x7FFFFFFF) 0 0 (⟨c :: rest, h⟩ : Tail s)
      if digitNext power.rest.val then
        if digits = 0 ∨ down then
          .ok (.real (if minus then -0.0 else 0.0), power.rest.dropDigits)
        else .error (.next .numberOutOfRange power.rest.val)
      else
        let exponent := if down then start - power.number else start + power.number
        assemble minus digits exponent power.rest
    else .error (.next .invalidNumber (c :: rest))

/-- Reads the exponent if there is one. -/
def readScale (minus : Bool) (digits : Nat) (start : Int) {s : List Char} (tail : Tail s) :
    Except Refusal (Number × Tail s) :=
  match tail with
  | ⟨'e' :: rest, h⟩ => readExponent minus digits start ⟨rest, Nat.le_of_succ_le h⟩
  | ⟨'E' :: rest, h⟩ => readExponent minus digits start ⟨rest, Nat.le_of_succ_le h⟩
  | other => assemble minus digits start other

/-- Reads a fraction, from behind its point. Digits beyond 64 bits are passed over. -/
def readFraction (minus : Bool) (digits : Nat) (start : Int) {s : List Char} (tail : Tail s) :
    Except Refusal (Number × Tail s) :=
  let fraction := takeDigits (UInt64.size - 1) digits 0 tail
  if digitNext fraction.rest.val then
    readScale minus fraction.number (start - fraction.taken) fraction.rest.dropDigits
  else if fraction.taken = 0 then
    match fraction.rest.val with
    | [] => .error (.here .endInValue [])
    | rest => .error (.next .invalidNumber rest)
  else readScale minus fraction.number (start - fraction.taken) fraction.rest

/-- Reads what follows the integral digits. -/
def readAfterWhole (minus : Bool) (digits : Nat) {s : List Char} (tail : Tail s) :
    Except Refusal (Number × Tail s) :=
  match tail with
  | ⟨'.' :: rest, h⟩ => readFraction minus digits 0 ⟨rest, Nat.le_of_succ_le h⟩
  | ⟨'e' :: rest, h⟩ => readExponent minus digits 0 ⟨rest, Nat.le_of_succ_le h⟩
  | ⟨'E' :: rest, h⟩ => readExponent minus digits 0 ⟨rest, Nat.le_of_succ_le h⟩
  | other =>
    if !minus then .ok (.natural (UInt64.ofNat digits), other)
    else if digits = 0 ∨ UInt64.size / 2 < digits then
      .ok (.real (-(UInt64.ofNat digits).toFloat), other)
    else .ok (.negative digits, other)

/-- Reads what follows integral digits beyond 64 bits: each of them is one more power of
ten. -/
def readAfterLongWhole (minus : Bool) (digits : Nat) {s : List Char} (tail : Tail s) :
    Except Refusal (Number × Tail s) :=
  let rest := tail.dropDigits
  let passed : Int := tail.val.length - rest.val.length
  match rest with
  | ⟨'.' :: rest, h⟩ => readFraction minus digits passed ⟨rest, Nat.le_of_succ_le h⟩
  | other => readScale minus digits passed other

/-- Reads a number whose first digit should be `first`, behind that character. -/
def readWhole (minus : Bool) (first : Char) (s : List Char) :
    Except Refusal (Number × Tail s) :=
  let start : Tail s := ⟨s, Nat.le_refl _⟩
  if first = '0' then
    if digitNext s then .error (.next .invalidNumber s) else readAfterWhole minus 0 start
  else if first.isDigit then
    let whole := takeDigits (UInt64.size - 1) (first.toNat - '0'.toNat) 1 start
    if digitNext whole.rest.val then readAfterLongWhole minus whole.number whole.rest
    else readAfterWhole minus whole.number whole.rest
  else .error (.next .invalidNumber (first :: s))

/-- Whether a number comes next. -/
def numberNext : List Char → Bool
  | [] => false
  | c :: _ => c == '-' || c.isDigit

/-- Reads a number. -/
def readNumber : (s : List Char) → Except Refusal (Found Number s.length)
  | '-' :: first :: rest =>
    (readWhole true first rest).map fun (number, tail) =>
      ⟨number, tail.val, Nat.lt_succ_of_le (Nat.le_succ_of_le tail.property)⟩
  | first :: rest =>
    if first = '-' then .error (.here .endInValue [])
    else (readWhole false first rest).map fun (number, tail) =>
      ⟨number, tail.val, Nat.lt_succ_of_le tail.property⟩
  | [] => .error (.here .endInValue [])

/-- A number without a sign begins with its first digit. -/
theorem readNumber_of_ne {first : Char} (unsigned : first ≠ '-') (s : List Char) :
    readNumber (first :: s) = (readWhole false first s).map fun (number, tail) =>
      ⟨number, tail.val, Nat.lt_succ_of_le tail.property⟩ := by
  cases s with
  | nil => simp [readNumber, unsigned]
  | cons c more => simp [readNumber, unsigned]

end TraceTables.Json
