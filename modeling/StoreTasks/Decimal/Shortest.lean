import StoreTasks.Decimal.Binary64

/-!
# Decimal — Shortest

The shortest decimal digits that read back as a given number, and of those the nearest.

A decimal reads back as `x` when it lies in the interval of numbers that round to `x`; its ends
belong to the interval when the mantissa of `x` is even.  On the grid of decimals with `n`
digits only the two neighbours of `x` need a test, so the first `n` from 1 to 17 for which one
of them reads back gives the digits.
-/

namespace StoreTasks.Decimal

/-- A positive decimal `0.d₁d₂… · 10 ^ point`, its digits without a final zero. -/
structure Digits where
  /-- The significant digits. -/
  digits : List Char
  /-- Where the decimal point stands, counted from the first digit. -/
  point : Int
deriving DecidableEq, Repr

/-- The fraction `num / den · 10 ^ shift` as numerator and denominator. -/
def scaleByTen (num den : Nat) (shift : Int) : Nat × Nat :=
  match shift with
  | .ofNat n => (num * Nat.pow 10 n, den)
  | .negSucc n => (num, den * Nat.pow 10 (n + 1))

/-- The decimal `coefficient · 10 ^ exponent`. -/
def Digits.ofCoefficient (coefficient : Nat) (exponent : Int) : Digits :=
  let all := Nat.toDigits 10 coefficient
  ⟨(all.reverse.dropWhile (· == '0')).reverse, exponent + all.length⟩

/-- The number of digits before the decimal point of `num / den`, not positive when there
are none. -/
def pointOf (num den : Nat) : Int :=
  let estimate : Int := (Nat.toDigits 10 num).length - (Nat.toDigits 10 den).length
  let (scaledNum, scaledDen) := scaleByTen num den (-estimate)
  if scaledDen ≤ scaledNum then estimate + 1 else estimate

namespace Binary64

/-- The interval of numbers that round to a positive `x`, in quarters of its last digit. -/
def quarters (x : Binary64) : Nat × Nat :=
  let low := if x.mantissa = leastNormal ∧ -1074 < x.exponent then 1 else 2
  (4 * x.mantissa - low, 4 * x.mantissa + 2)

/-- The decimal `coefficient · 10 ^ exponent` reads back as `x`. -/
def readsBack (x : Binary64) (coefficient : Nat) (exponent : Int) : Bool :=
  let (num, den) := scaleByTen coefficient 1 exponent
  let (num, den) := scaleByTwo num den (2 - x.exponent)
  let (low, high) := x.quarters
  if x.mantissa % 2 = 0 then low * den ≤ num && num ≤ high * den
  else low * den < num && num < high * den

/-- The decimal with `count` digits that is nearest to `x` of those that read back as `x`. -/
def digitsOfLength? (x : Binary64) (count : Nat) : Option Digits :=
  let (num, den) := x.ratio
  let exponent := pointOf num den - count
  let (scaledNum, scaledDen) := scaleByTen num den (-exponent)
  let below := scaledNum / scaledDen
  let near := nearestEven scaledNum scaledDen
  let far := if near = below then below + 1 else below
  if readsBack x near exponent then some (.ofCoefficient near exponent)
  else if readsBack x far exponent then some (.ofCoefficient far exponent)
  else none

/-- The shortest digits that read back as `x`, for `x` not zero.  Seventeen always do. -/
def shortestDigits (x : Binary64) : Digits :=
  ((List.range 17).findSome? fun n => digitsOfLength? x (n + 1)).getD ⟨['0'], 1⟩

/-- The number as text: with a point and at least one digit on both sides of it when the
absolute value is zero or from `1e-5` to below `1e16`, else as a power of ten with a signed
exponent. -/
def text (x : Binary64) : List Char :=
  let sign := if x.negative then ['-'] else []
  if x.isZero then sign ++ ['0', '.', '0']
  else
    let ⟨digits, point⟩ := x.shortestDigits
    let count : Int := digits.length
    sign ++
      if 16 < point ∨ point < -4 then
        let exponent := point - 1
        let fraction := digits.drop 1
        digits.take 1 ++ (if fraction.isEmpty then [] else '.' :: fraction)
          ++ ['e', if exponent < 0 then '-' else '+'] ++ Nat.toDigits 10 exponent.natAbs
      else if point ≤ 0 then
        ['0', '.'] ++ List.replicate (-point).toNat '0' ++ digits
      else if count ≤ point then
        digits ++ List.replicate (point - count).toNat '0' ++ ['.', '0']
      else
        digits.take point.toNat ++ '.' :: digits.drop point.toNat

example : (ofRatio? false 1 (1 <<< 1074)).map text = some ['5', 'e', '-', '3', '2', '4'] := by
  decide +kernel

example : (ofRatio? true 1 10).map text = some ['-', '0', '.', '1'] := by decide +kernel

end Binary64

end StoreTasks.Decimal
