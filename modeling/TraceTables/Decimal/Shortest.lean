/-!
# The shortest decimal of a binary number

A binary floating-point number stands for all reals that round to it. Among the decimals
in that interval the shortest is the one to print, and of several shortest ones the one
nearest to the number.

Everything is decided in exact arithmetic on natural numbers. On the grid of decimals
with a given number of digits only the two neighbours of the number can be nearest to
it, so it is enough to try these two for one digit, two digits, and so on.
-/

namespace TraceTables.Decimal

/-- A positive binary number, `significand * 2 ^ exponent`. -/
structure Binary where
  significand : Nat
  exponent : Int
  /-- Whether the next smaller number is only half as far away as the next larger one. -/
  narrow : Bool

/-- A positive decimal number, `digits * 10 ^ exponent`. -/
structure Numeral where
  digits : Nat
  exponent : Int

/-- The number in a comparison of `x * 2 ^ two` with a multiple of `10 ^ ten`: both sides
are brought to natural numbers, and this is the left one. -/
def scaled (x : Nat) (two ten : Int) : Nat :=
  x * Nat.pow 2 two.toNat * Nat.pow 10 (-ten).toNat

/-- What one unit of `10 ^ ten` becomes in a comparison with `scaled x two ten`. -/
def unit (two ten : Int) : Nat :=
  Nat.pow 10 ten.toNat * Nat.pow 2 (-two).toNat

namespace Binary

/-- Whether `digits * 10 ^ ten` rounds to the number. The ends of the interval, halfway to
the neighbours, round to it when the significand is even. -/
def admits (b : Binary) (digits : Nat) (ten : Int) : Bool :=
  let two := b.exponent - 2
  let low := scaled (4 * b.significand - if b.narrow then 1 else 2) two ten
  let high := scaled (4 * b.significand + 2) two ten
  let point := digits * unit two ten
  if b.significand % 2 = 0 then low ≤ point && point ≤ high else low < point && point < high

/-- The nearest decimal on the grid of multiples of `10 ^ ten` that rounds to the number,
if there is one; of two equally near ones the even one. -/
def nearest? (b : Binary) (ten : Int) : Option Numeral :=
  let two := b.exponent - 2
  let value := scaled (4 * b.significand) two ten
  let step := unit two ten
  let below := value / step
  let above := below + 1
  match b.admits below ten, b.admits above ten with
  | false, false => none
  | true, false => some ⟨below, ten⟩
  | false, true => some ⟨above, ten⟩
  | true, true =>
    let down := value - below * step
    let up := above * step - value
    if down < up ∨ (down = up ∧ below % 2 = 0) then some ⟨below, ten⟩ else some ⟨above, ten⟩

/-- The decimal exponent of the number's first digit. The estimate from the length of the
significand is at most three short. -/
def leadingExponent (b : Binary) : Int :=
  let estimate := (((b.significand.log2 : Int) + b.exponent) * 30103).fdiv 100000 - 1
  let exceeds (ten : Int) := scaled b.significand b.exponent ten < unit b.exponent ten
  if exceeds (estimate + 1) then estimate
  else if exceeds (estimate + 2) then estimate + 1
  else if exceeds (estimate + 3) then estimate + 2
  else estimate + 3

/-- The shortest decimal that rounds to the number. Seventeen digits are always enough
for a significand of 53 bits. -/
def shortest (b : Binary) : Numeral :=
  let lead := b.leadingExponent
  ((List.range 17).findSome? fun (more : Nat) => b.nearest? (lead - more)).getD ⟨0, 0⟩

end Binary

/-- The significant digits of a decimal, without zeros at the end, and the exponent of
the first of them. -/
def Numeral.scientific (n : Numeral) : List Char × Int :=
  let digits := Nat.toDigits 10 n.digits
  ((digits.reverse.dropWhile (· = '0')).reverse, n.exponent + (digits.length - 1))

/-- The magnitude of a finite floating-point number other than zero. -/
def Binary.ofFloat (x : Float) : Binary :=
  let bits := x.toBits.toNat
  let biased : Nat := bits / Nat.pow 2 52 % Nat.pow 2 11
  let fraction : Nat := bits % Nat.pow 2 52
  if biased = 0 then ⟨fraction, -1074, false⟩
  else ⟨Nat.pow 2 52 + fraction, (biased : Int) - 1075, fraction == 0 && 1 < biased⟩

end TraceTables.Decimal
