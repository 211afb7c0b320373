/-!
# Numbers

The values of numeric literals: the non-negative binary floating-point numbers with a
significand of 53 bits, and infinity. `Number.ofRatio` rounds an exact quotient to the nearest
of them, ties to the even significand; everything is done with natural numbers, so nothing is
lost before the one rounding.
-/

namespace JsxDialect

/-- `finite m e` is `m * 2 ^ e`, with `m < 2 ^ 53` and `-1074 ≤ e`; a significand below `2 ^ 52`
occurs only with the least exponent. -/
inductive Number where
  | finite (significand : Nat) (exponent : Int)
  | infinite
deriving Repr, DecidableEq, Inhabited

namespace Number

/-- `2 ^ n` for a non-negative `n`, and `1` otherwise. -/
def twoPow (n : Int) : Nat :=
  Nat.pow 2 n.toNat

/-- `10 ^ n` for a non-negative `n`, and `1` otherwise. -/
def tenPow (n : Int) : Nat :=
  Nat.pow 10 n.toNat

/-- The numerator and the denominator of `m * 2 ^ e`. -/
def ratio (m : Nat) (e : Int) : Nat × Nat :=
  (m * twoPow e, twoPow (-e))

/-- The quotient rounded to the nearest natural number, ties to even. -/
def roundDiv (num den : Nat) : Nat :=
  let q := num / den
  let r := num % den
  if 2 * r < den then q else if den < 2 * r then q + 1 else q + q % 2

/-- The number nearest to `num / den`. -/
def ofRatio (num den : Nat) : Number :=
  if num == 0 then .finite 0 (-1074)
  else
    let estimate : Int := max ((num.log2 : Int) - den.log2 - 53) (-1074)
    let scaled (e : Int) : Nat × Nat := (num * twoPow (-e), den * twoPow e)
    let (n, d) := scaled estimate
    let e := if twoPow 53 ≤ n / d then estimate + 1 else estimate
    let (n, d) := scaled e
    let m := roundDiv n d
    let (m, e) := if m == twoPow 53 then (twoPow 52, e + 1) else (m, e)
    if 971 < e then .infinite else .finite m e

/-- The number nearest to a natural number. -/
def ofNat (n : Nat) : Number :=
  ofRatio n 1

/-- The number nearest to `digits * 10 ^ exponent`. Far beyond the range of the numbers the
powers are not computed. -/
def ofDecimal (digits : Nat) (exponent : Int) : Number :=
  if digits == 0 || exponent + digits.log2 < -400 then .finite 0 (-1074)
  else if 400 < exponent then .infinite
  else ofRatio (digits * tenPow exponent) (tenPow (-exponent))

/-- The integer a number is, if it is one. -/
def toNat? : Number → Option Nat
  | .infinite => none
  | .finite m e =>
    let (num, den) := ratio m e
    if num % den == 0 then some (num / den) else none

end Number

end JsxDialect
