import TraceTables.Decimal.Shortest

/-!
# Layouts of decimal numbers

A floating-point number is printed with its shortest digits. The layout decides the rest:
which numbers are written positionally and which with an exponent. A positional number
always has a point with at least one digit after it, and an exponent always has its sign.
-/

namespace TraceTables.Decimal

/-- Which numbers are written positionally: those whose first digit has an exponent from
`least` to `greatest`. -/
structure Layout where
  least : Int
  greatest : Int

namespace Layout

/-- Digits with the point among, before or after them, as the exponent of the first one
demands. -/
def positional (digits : List Char) (exponent : Int) : List Char :=
  let whole := (exponent + 1).toNat
  if exponent < 0 then
    '0' :: '.' :: List.replicate (-exponent - 1).toNat '0' ++ digits
  else if digits.length ≤ whole then
    digits ++ List.replicate (whole - digits.length) '0' ++ ['.', '0']
  else digits.take whole ++ '.' :: digits.drop whole

/-- Digits with the point after the first, if others follow it, and the exponent. -/
def exponential (digits : List Char) (exponent : Int) : List Char :=
  let fraction := digits.drop 1
  digits.take 1 ++ (if fraction.isEmpty then [] else '.' :: fraction) ++
    'e' :: (if exponent < 0 then '-' else '+') :: Nat.toDigits 10 exponent.natAbs

/-- The text of a finite floating-point number. -/
def render (layout : Layout) (x : Float) : String :=
  let digits :=
    if x == 0 then ['0', '.', '0']
    else
      let (digits, exponent) := (Binary.ofFloat x).shortest.scientific
      if layout.least ≤ exponent ∧ exponent ≤ layout.greatest then positional digits exponent
      else exponential digits exponent
  String.ofList (if x.toBits >>> 63 = 1 then '-' :: digits else digits)

end Layout

end TraceTables.Decimal
