import JsxDialect.Number.Basic

/-!
# The shortest decimal of a number

A number is written with the fewest digits that read back as it, and of those the nearest ones.
`shortest` finds them by trying one digit, two digits, … and testing the two neighbours of the
number on each decimal grid against the interval of reals that round to it. Seventeen digits
always suffice.
-/

namespace JsxDialect.Number

/-- The decimal `0.d₁d₂… * 10 ^ point`. -/
structure Decimal where
  digits : List Char
  point : Int
deriving Repr, DecidableEq

/-- The digits of a natural number. -/
def decimalDigits (n : Nat) : List Char :=
  Nat.toDigits 10 n

/-- The interval of the reals that round to `m * 2 ^ e`, scaled: the numerators of its lower end,
of the number and of its upper end, over one denominator. -/
def interval (m : Nat) (e : Int) : Nat × Nat × Nat × Nat :=
  let (num, den) := ratio 1 e
  let below := if m == twoPow 52 && e != -1074 then 1 else 2
  ((4 * m - below) * num, 4 * m * num, (4 * m + 2) * num, 4 * den)

/-- The number of zeros after the point of `num / den`, a positive quotient below one. -/
def leadingZeros (num den : Nat) : Nat → Nat
  | 0 => 0
  | fuel + 1 => if den ≤ num * 10 then 0 else leadingZeros (num * 10) den fuel + 1

/-- The `point` with `10 ^ (point - 1) ≤ num / den < 10 ^ point`, for a positive quotient. -/
def decimalPoint (num den : Nat) : Int :=
  if den ≤ num then (decimalDigits (num / den)).length
  else -(leadingZeros num den (num + den).log2.succ : Int)

/-- The factor of the multiple of `10 ^ exponent` that is nearest to the number and reads back as
it, if there is one. The ends of the interval read back exactly if the significand is even. -/
def onGrid (m : Nat) (exponent : Int) (low value high den : Nat) : Option Nat :=
  let up := tenPow (-exponent)
  let unit := den * tenPow exponent
  let n := value * up / unit
  let inside (k : Nat) : Bool :=
    if m % 2 == 0 then low * up ≤ k * unit && k * unit ≤ high * up
    else low * up < k * unit && k * unit < high * up
  let distanceBelow := value * up - n * unit
  let distanceAbove := (n + 1) * unit - value * up
  match inside n && n != 0, inside (n + 1) with
  | true, true =>
    some (if distanceBelow < distanceAbove || (distanceBelow == distanceAbove && n % 2 == 0)
      then n else n + 1)
  | true, false => some n
  | false, true => some (n + 1)
  | false, false => none

/-- The decimal `factor * 10 ^ exponent`, without trailing zeros. -/
def Decimal.ofFactor (factor : Nat) (exponent : Int) : Decimal :=
  let ds := decimalDigits factor
  ⟨(ds.reverse.dropWhile (· == '0')).reverse, exponent + ds.length⟩

/-- The shortest decimal of a positive `m * 2 ^ e`. -/
def shortest (m : Nat) (e : Int) : Decimal :=
  let (low, value, high, den) := interval m e
  let point := decimalPoint value den
  let digits? (count : Nat) : Option Decimal :=
    (onGrid m (point - count) low value high den).map (Decimal.ofFactor · (point - count))
  ((List.range 17).findSome? fun k => digits? (k + 1)).getD ⟨['0'], 1⟩

/-- Which decimals are written without an exponent: those whose point lies at most this many
places right of the first digit, or less than this many left of it. -/
structure Positional where
  right : Int := 21
  left : Int := 6

/-- The text of a decimal: positional within the limits, with an exponent and its sign
otherwise. -/
def Decimal.text (limits : Positional) (d : Decimal) : List Char :=
  let n : Int := d.digits.length
  let zeros (k : Int) : List Char := List.replicate k.toNat '0'
  if n ≤ d.point && d.point ≤ limits.right then d.digits ++ zeros (d.point - n)
  else if 0 < d.point && d.point ≤ limits.right then
    d.digits.take d.point.toNat ++ '.' :: d.digits.drop d.point.toNat
  else if -limits.left < d.point && d.point ≤ 0 then
    '0' :: '.' :: zeros (-d.point) ++ d.digits
  else
    let exponent := d.point - 1
    let mantissa :=
      match d.digits with
      | [] => []
      | [c] => [c]
      | c :: cs => c :: '.' :: cs
    let sign := if exponent < 0 then '-' else '+'
    mantissa ++ 'e' :: sign :: decimalDigits exponent.natAbs

/-- The text a number has as a property name: positional up to twenty-one places. -/
def toText : Number → List Char
  | .infinite => "Infinity".toList
  | .finite m e => if m == 0 then ['0'] else (shortest m e).text {}

end JsxDialect.Number
