import TreeQuery.Decimal.Binary64

/-!
# The fewest digits that read back

A magnitude is the nearest one to every number in an interval around it. Among the
decimals in that interval the shortest is the one to print: it reads back as the
same magnitude, and no decimal with fewer digits does. Of several equally short
ones the nearest is taken, and of two equally near the even one.

With a given number of digits the decimals form a grid. If any point of the grid
lies in the interval, then so does one of the two next to the magnitude itself, so
only those two are tried, for one digit, for two, and so on. Seventeen digits are
always enough.

## Main definitions

* `Decimal`: Digits and a power of ten.
* `Decimal.style`: Where positional notation ends and how exponents are written.
* `Binary64.shortest`: The shortest decimal that reads back.
* `Binary64.render`: The text of a magnitude.
-/

namespace TreeQuery

/-- The number `digits · 10 ^ exponent`. -/
structure Decimal where
  digits : Nat
  exponent : Int
  deriving DecidableEq

/-- How decimals are written. -/
structure Decimal.Style where
  /-- The least exponent of the leading digit that is written positionally. -/
  least : Int
  /-- The greatest such exponent. -/
  greatest : Int
  /-- What stands in front of an exponent that is not negative. -/
  plus : String

namespace Decimal

/-- Numbers from a hundred-thousandth to ten quadrillion are written positionally, and every
    exponent has a sign. -/
def style : Style := ⟨-5, 15, "+"⟩

/-- The same number with its trailing zeros moved into the exponent. The first argument bounds the
    number of zeros. -/
def dropZeros : Nat → Decimal → Decimal
  | 0, decimal => decimal
  | zeros + 1, decimal =>
    if decimal.digits % 10 = 0 then dropZeros zeros ⟨decimal.digits / 10, decimal.exponent + 1⟩
    else decimal

/-- The text of a decimal. A number without a fraction gets one that is zero. -/
def render (style : Style) (decimal : Decimal) : String :=
  let digits := Nat.toDigits 10 decimal.digits
  let count : Int := digits.length
  let leading := decimal.exponent + count - 1
  let zeros (n : Int) : List Char := List.replicate n.toNat '0'
  if leading < style.least ∨ style.greatest < leading then
    let fraction := digits.drop 1
    let point := if fraction.isEmpty then [] else ['.']
    let sign := if leading < 0 then "-" else style.plus
    String.ofList (digits.take 1 ++ point ++ fraction) ++ "e" ++ sign ++ toString leading.natAbs
  else if 0 ≤ decimal.exponent then
    String.ofList (digits ++ zeros decimal.exponent ++ ['.', '0'])
  else if 0 ≤ leading then
    let whole := (leading + 1).toNat
    String.ofList (digits.take whole ++ ['.'] ++ digits.drop whole)
  else
    String.ofList (['0', '.'] ++ zeros (-leading - 1) ++ digits)

end Decimal

namespace Binary64

/-- How `digits · 10 ^ power` compares with `count · 2 ^ exponent`, exactly. -/
def compareTo (decimal : Decimal) (count : Nat) (exponent : Int) : Ordering :=
  compare (decimal.digits * tenTo decimal.exponent.toNat * twoTo (-exponent).toNat)
    (count * twoTo exponent.toNat * tenTo (-decimal.exponent).toNat)

/-- Whether a decimal reads back as this magnitude: it lies between the midpoints to the two
    neighbours, or on one of them if the significand is even. All are counted in quarters of the
    last place, because the neighbour below a power of two is only half as far away. -/
def readsBack (number : Binary64) (decimal : Decimal) : Bool :=
  let narrow := number.significand = twoTo 52 ∧ -1074 < number.exponent
  let lower := if narrow then 4 * number.significand - 1 else 4 * number.significand - 2
  let upper := 4 * number.significand + 2
  let closed := number.significand % 2 = 0
  let below := compareTo decimal lower (number.exponent - 2)
  let above := compareTo decimal upper (number.exponent - 2)
  (below = .gt ∨ (below = .eq ∧ closed)) ∧ (above = .lt ∨ (above = .eq ∧ closed))

/-- The magnitude divided by a power of ten, as a fraction. -/
def inTens (number : Binary64) (power : Int) : Nat × Nat :=
  (number.significand * twoTo number.exponent.toNat * tenTo (-power).toNat,
   twoTo (-number.exponent).toNat * tenTo power.toNat)

/-- The power of ten of the leading digit. No magnitude but zero is less than `10 ^ -324`. -/
def leadingTen (number : Binary64) : Int :=
  let scaled := number.inTens (-324)
  ((Nat.toDigits 10 (scaled.1 / scaled.2)).length : Int) - 325

/-- The decimal with a given place of its last digit that reads back and is nearest. -/
def nearest? (number : Binary64) (last : Int) : Option Decimal :=
  let fraction := number.inTens last
  let low := fraction.1 / fraction.2
  let twice := 2 * (fraction.1 % fraction.2)
  let lowIsNearer := twice < fraction.2 ∨ (twice = fraction.2 ∧ low % 2 = 0)
  let inOrder := if lowIsNearer then [low, low + 1] else [low + 1, low]
  (inOrder.map fun digits => Decimal.mk digits last).find? number.readsBack

/-- The shortest decimal that reads back, with no trailing zeros. -/
def shortest (number : Binary64) : Decimal :=
  let leading := number.leadingTen
  match (List.range 17).findSome? fun (n : Nat) => number.nearest? (leading - n) with
  | some decimal => decimal.dropZeros 18
  | none => ⟨0, 0⟩

def render (style : Decimal.Style) (number : Binary64) : String :=
  if number.significand = 0 then "0.0" else number.shortest.render style

-- The ends of positional notation, and the least magnitude that is not zero.
example : (ofRatio? 1 100000).map (render Decimal.style) = some "0.00001" := by decide +kernel

example : (ofRatio? 1 1000000).map (render Decimal.style) = some "1e-6" := by decide +kernel

example : (ofNat? (tenTo 15)).map (render Decimal.style) = some "1000000000000000.0" := by
  decide +kernel

example : (ofNat? (tenTo 16)).map (render Decimal.style) = some "1e+16" := by decide +kernel

example : render Decimal.style ⟨1, -1074⟩ = "5e-324" := by decide +kernel

end Binary64

end TreeQuery
