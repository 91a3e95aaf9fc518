import BelugaManager.Foundation.CodeUnits
import BelugaManager.Foundation.JsNumber
import Mathlib.Data.Int.Log

/-!
# Numbers as text

`String(x)` of a number: the shortest decimal digits that are read as this number again,
and of those the closest.
-/

namespace Foundation.JsNumber

/-- Decimal digits with the position of the point, counted from the first digit. -/
structure Decimal where
  digits : List Char
  point : ℤ

/-- How many digits a positive number has before its point; not positive if there are
none. -/
def pointOf (x : ℚ) : ℤ := Int.log 10 x + 1

/-- The value of a digit string that is written with as many digits as `k`. -/
def decimalValue (x : ℚ) (k s : ℕ) : ℚ := s * (10 : ℚ) ^ (pointOf x - k)

/-- The closest number of `k` digits that is read as `x`, even if two are equally close. -/
def closest (r : Rounding) (x : ℚ) (k : ℕ) : Option ℕ :=
  let scaled := x * (10 : ℚ) ^ (k - pointOf x)
  let below := ⌊scaled⌋.toNat
  let readBelow : Bool := r.round (decimalValue x k below) = .finite x
  let readAbove : Bool := r.round (decimalValue x k (below + 1)) = .finite x
  let half := scaled - below
  if readBelow && readAbove then
    if half < 1 / 2 || (half = 1 / 2 && below % 2 = 0) then some below else some (below + 1)
  else if readBelow then some below
  else if readAbove then some (below + 1)
  else none

/-- The fewest digits; numbers of the format need at most seventeen. -/
def shortest (r : Rounding) (x : ℚ) : Option Decimal :=
  (List.range 17).findSome? fun i =>
    (closest r x (i + 1)).map fun s =>
      if s = 10 ^ (i + 1) then ⟨['1'], pointOf x + 1⟩ else ⟨Nat.toDigits 10 s, pointOf x⟩

/-- How digits are laid out, with an exponent if there are many zeros. -/
def layout (decimal : Decimal) : List Char :=
  let k : ℤ := decimal.digits.length
  let n := decimal.point
  if -5 ≤ n ∧ n ≤ 21 then
    if k ≤ n then decimal.digits ++ List.replicate (n - k).toNat '0'
    else if 0 < n then decimal.digits.take n.toNat ++ '.' :: decimal.digits.drop n.toNat
    else '0' :: '.' :: (List.replicate (-n).toNat '0' ++ decimal.digits)
  else
    let exponent := 'e' :: (if n < 0 then '-' else '+') :: Nat.toDigits 10 (n - 1).natAbs
    match decimal.digits with
    | [] => exponent
    | [digit] => digit :: exponent
    | digit :: rest => digit :: '.' :: (rest ++ exponent)

/-- The text of a positive number. -/
def positiveText (r : Rounding) (x : ℚ) : List Char := ((shortest r x).map layout).getD []

/-- `String(x)` -/
def toText (r : Rounding) : JsNumber → JsString
  | .nan => JsString.ofString "NaN"
  | .infinity => JsString.ofString "Infinity"
  | .negInfinity => JsString.ofString "-Infinity"
  | .finite x =>
      if x = 0 then JsString.ofString "0"
      else if x < 0 then JsString.ofString (String.ofList ('-' :: positiveText r (-x)))
      else JsString.ofString (String.ofList (positiveText r x))

end Foundation.JsNumber

/-- `String(n)` of an integer of any size. -/
def Foundation.bigintText (n : ℤ) : Foundation.JsString :=
  Foundation.JsString.ofString (toString n)
