import JsxDialect.Number.Decimal

/-!
# Compact numeric literals

A literal is written in the shortest of several spellings of its value: the positional or
exponential text without a leading zero, the hexadecimal one of an integer, the ones with
leading or trailing zeros folded into an exponent, and the one without a point. The first
spelling of least length wins; an integer below a thousand is always written out.
-/

namespace JsxDialect.Number

/-- The text with the plus sign after its first exponent mark removed. -/
def dropPlus : List Char → List Char
  | 'e' :: '+' :: cs => 'e' :: cs
  | c :: cs => c :: dropPlus cs
  | [] => []

/-- The text without the zero before its point. -/
def dropZero : List Char → List Char
  | '0' :: '.' :: cs => '.' :: cs
  | cs => cs

/-- The text of an integer exponent. -/
def exponentText (e : Int) : List Char :=
  if e < 0 then '-' :: decimalDigits e.natAbs else decimalDigits e.natAbs

/-- `.00123` as `123e-5`. -/
def foldLeading (s : List Char) : List (List Char) :=
  match s with
  | '.' :: '0' :: cs =>
    let digits := cs.dropWhile (· == '0')
    if digits.isEmpty then []
    else [digits ++ 'e' :: '-' :: decimalDigits (s.length - 1)]
  | _ => []

/-- `12000` as `12e3`, or `1.2e30` as `12e29`. -/
def foldTrailing (s : List Char) : List (List Char) :=
  if s.getLast? == some '0' then
    let base := (s.reverse.dropWhile (· == '0')).reverse
    if base.isEmpty then [] else [base ++ 'e' :: decimalDigits (s.length - base.length)]
  else
    let whole := s.takeWhile (· != '.')
    let fraction := (s.dropWhile (· != '.')).drop 1
    let places := fraction.takeWhile (· != 'e')
    match fraction.dropWhile (· != 'e') with
    | [] => []
    | _ :: exponent =>
      let value : Int :=
        match exponent with
        | '-' :: ds => -((String.ofList ds).toNat?.getD 0 : Int)
        | ds => (String.ofList ds).toNat?.getD 0
      [whole ++ places ++ 'e' :: exponentText (value - places.length)]

/-- The first shortest of some texts. -/
def firstShortest (best : List Char) (others : List (List Char)) : List Char :=
  others.foldl (fun b s => if s.length < b.length then s else b) best

/-- The literal a number is written as. -/
def literal (x : Number) : List Char :=
  let plain := x.toText
  match x.toNat? with
  | some n =>
    if n < 1000 then plain
    else
      let s := dropPlus (dropZero plain)
      firstShortest s (('0' :: 'x' :: Nat.toDigits 16 n) :: foldTrailing s)
  | none =>
    let s := dropPlus (dropZero plain)
    firstShortest s (foldLeading s ++ foldTrailing s)

end JsxDialect.Number
