/-!
# Numbers of binary precision

The magnitudes that a floating point number of 64 bits can have: `m · 2^e` with
`m < 2^53` and `-1074 ≤ e ≤ 971`. Arithmetic on them is exact arithmetic on
fractions followed by one rounding, to the nearest such number and to the even
one if two are equally near. A result beyond the greatest number is no number.

Everything is computed in natural numbers. There is no use of the machine's own
floating point, so that a result can be evaluated inside a proof.

## Main definitions

* `Binary64`: A magnitude, as significand and exponent.
* `Binary64.ofRatio?`: The magnitude nearest to a fraction.
* `Binary64.mul?`, `Binary64.div?`: Rounded product and quotient.
* `Binary64.scale?`: Multiply by a power of ten, in the steps in which a reader of
  numbers does it.
-/

namespace TreeQuery

/-- The magnitude `significand · 2 ^ exponent`. -/
structure Binary64 where
  /-- A number below `2^53`; at least `2^52` unless the exponent is the least one. -/
  significand : Nat
  /-- The power of two by which it is scaled. -/
  exponent : Int
  deriving DecidableEq

namespace Binary64

def twoTo (n : Nat) : Nat := Nat.pow 2 n

def tenTo (n : Nat) : Nat := Nat.pow 10 n

/-- The fraction `num / den`, rounded to the nearest integer, and to the even one of two. -/
def roundHalfEven (num den : Nat) : Nat :=
  let low := num / den
  let twice := 2 * (num % den)
  if twice < den then low
  else if den < twice then low + 1
  else if low % 2 = 0 then low
  else low + 1

/-- The fraction `num / den` divided by a power of two, as a fraction. -/
def unscale (num den : Nat) (exponent : Int) : Nat × Nat :=
  (num * twoTo (-exponent).toNat, den * twoTo exponent.toNat)

/-- The magnitude nearest to `num / den`, or nothing if that is beyond the greatest one. -/
def ofRatio? (num den : Nat) : Option Binary64 :=
  -- The quotient of the leading powers of two is the exponent of the fraction or one too much.
  let low : Int := max ((num.log2 : Int) - den.log2 - 53) (-1074)
  let fits (exponent : Int) : Bool :=
    let fraction := unscale num den exponent
    decide (fraction.1 < twoTo 53 * fraction.2)
  let exponent := if fits low then low else low + 1
  let fraction := unscale num den exponent
  let significand := roundHalfEven fraction.1 fraction.2
  let rounded : Binary64 :=
    if significand = twoTo 53 then ⟨twoTo 52, exponent + 1⟩ else ⟨significand, exponent⟩
  if 971 < rounded.exponent then none else some rounded

def ofNat? (n : Nat) : Option Binary64 :=
  ofRatio? n 1

def mul? (left right : Binary64) : Option Binary64 :=
  let exponent := left.exponent + right.exponent
  ofRatio? (left.significand * right.significand * twoTo exponent.toNat) (twoTo (-exponent).toNat)

def div? (left right : Binary64) : Option Binary64 :=
  let exponent := left.exponent - right.exponent
  ofRatio? (left.significand * twoTo exponent.toNat) (right.significand * twoTo (-exponent).toNat)

/-- The greatest power of ten that is a magnitude. -/
def greatestTen : Nat := 308

/-- Divide by a power of ten that is itself rounded to a magnitude. -/
def divTen? (number : Binary64) (exponent : Nat) : Option Binary64 :=
  (ofNat? (tenTo exponent)).bind number.div?

/-- Divide a number of times by the greatest power of ten, stopping early at zero. -/
def lower? : Nat → Binary64 → Option Binary64
  | 0, number => some number
  | steps + 1, number =>
    if number.significand = 0 then some number
    else (number.divTen? greatestTen).bind (lower? steps)

/-- Multiply by a power of ten, or divide if its exponent is negative. Zero stays zero. A power
    beyond the greatest one that is a magnitude makes a product too large; a quotient by such a
    power is taken in several steps, of which each rounds. -/
def scale? (number : Binary64) (exponent : Int) : Option Binary64 :=
  let size := exponent.natAbs
  if exponent < 0 then
    let steps := (size - 1) / greatestTen
    (lower? steps number).bind fun lowered => lowered.divTen? (size - steps * greatestTen)
  else if size ≤ greatestTen then (ofNat? (tenTo size)).bind number.mul?
  else if number.significand = 0 then some number
  else none

end Binary64

end TreeQuery
