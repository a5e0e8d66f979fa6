/-!
# Decimal — Binary64

Finite numbers of the 64-bit binary format, as a mantissa below `2 ^ 53` and a power of two,
with exact integer arithmetic and rounding to the nearest, ties to the even mantissa.

A number is normal when its mantissa has all 53 digits; below the least normal number the
exponent stays at `-1074` and the mantissa gets shorter.  Results beyond the greatest finite
number are `none`.
-/

namespace StoreTasks.Decimal

/-- The finite number `± mantissa · 2 ^ exponent`; zero has a sign too. -/
structure Binary64 where
  /-- The sign is a minus. -/
  negative : Bool
  /-- The digits, below `2 ^ 53`. -/
  mantissa : Nat
  /-- The power of two of the last digit, from `-1074` to `971`. -/
  exponent : Int
deriving DecidableEq, Repr

/-- The integer nearest to `num / den`; of two equally near, the even one. -/
def nearestEven (num den : Nat) : Nat :=
  let quotient := num / den
  let twice := 2 * (num % den)
  if twice < den then quotient
  else if den < twice then quotient + 1
  else if quotient % 2 = 0 then quotient else quotient + 1

/-- The fraction `num / den · 2 ^ shift` as numerator and denominator. -/
def scaleByTwo (num den : Nat) (shift : Int) : Nat × Nat :=
  match shift with
  | .ofNat n => (num <<< n, den)
  | .negSucc n => (num, den <<< (n + 1))

namespace Binary64

/-- Mantissas are below `2 ^ 53`. -/
def mantissaLimit : Nat := 0x20_0000_0000_0000

/-- The least mantissa of a normal number, `2 ^ 52`. -/
def leastNormal : Nat := 0x10_0000_0000_0000

/-- The exponent at which `num / den` has a mantissa of 53 digits, but not below `-1074`. -/
def exponentFor (num den : Nat) : Int :=
  let estimate : Int := (Nat.log2 num : Int) - Nat.log2 den - 53
  let (scaledNum, scaledDen) := scaleByTwo num den (-estimate)
  max (-1074) (if scaledNum / scaledDen < mantissaLimit then estimate else estimate + 1)

/-- The number nearest to `± num / den`, or `none` when that is beyond the finite ones. -/
def ofRatio? (negative : Bool) (num den : Nat) : Option Binary64 :=
  let exponent := exponentFor num den
  let (scaledNum, scaledDen) := scaleByTwo num den (-exponent)
  let mantissa := nearestEven scaledNum scaledDen
  let (mantissa, exponent) :=
    if mantissa = mantissaLimit then (leastNormal, exponent + 1) else (mantissa, exponent)
  if exponent ≤ 971 then some ⟨negative, mantissa, exponent⟩ else none

/-- The absolute value as a fraction. -/
def ratio (x : Binary64) : Nat × Nat :=
  scaleByTwo x.mantissa 1 x.exponent

/-- The value is zero, whatever its sign. -/
def isZero (x : Binary64) : Bool :=
  x.mantissa = 0

/-- The product, rounded. -/
def mul? (x y : Binary64) : Option Binary64 :=
  let (xNum, xDen) := x.ratio
  let (yNum, yDen) := y.ratio
  ofRatio? (x.negative != y.negative) (xNum * yNum) (xDen * yDen)

/-- The quotient, rounded; `y` is not zero. -/
def div? (x y : Binary64) : Option Binary64 :=
  let (xNum, xDen) := x.ratio
  let (yNum, yDen) := y.ratio
  ofRatio? (x.negative != y.negative) (xNum * yDen) (xDen * yNum)

/-- The number with the other sign. -/
def neg (x : Binary64) : Binary64 :=
  { x with negative := !x.negative }

example : ofRatio? false 1 1 = some ⟨false, leastNormal, -52⟩ := by decide +kernel

example : ofRatio? false 1 (1 <<< 1074) = some ⟨false, 1, -1074⟩ := by decide +kernel

example : ofRatio? false (1 <<< 1024) 1 = none := by decide +kernel

end Binary64

end StoreTasks.Decimal
