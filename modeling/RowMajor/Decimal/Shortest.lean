import RowMajor.Binary64.Rounding

/-!
# Shortest decimals

A decimal that stands for a number need not equal it: it only has to lie closer to
that number than to any other of the format. Such decimals fill an interval around the
number, and this module picks one with the fewest digits. For each count of digits the
decimals with that many digits form an evenly spaced grid, and if any point of the grid
lies in the interval, so does one of the two neighbours of the number itself. It is
therefore enough to test those two on ever finer grids.
-/

namespace RowMajor

/-- A positive decimal: its digits without trailing zeros, the first of them standing for a
multiple of `10 ^ exponent`. -/
structure Decimal where
  digits : List Char
  exponent : Int
deriving DecidableEq

namespace Decimal

/-- The decimal `n * 10 ^ -places`. -/
def ofScaled (n : Nat) (places : Int) : Decimal :=
  let all := Nat.toDigits 10 n
  ⟨(all.reverse.dropWhile (· == '0')).reverse, Int.ofNat all.length - 1 - places⟩

/-- The decimals that stand for `value / denominator`: those from `low / denominator` to
`high / denominator`, the ends included if the interval is closed. -/
structure Interval where
  low : Nat
  value : Nat
  high : Nat
  denominator : Nat
  closed : Bool

namespace Interval

def admits (i : Interval) (num scale : Nat) : Bool :=
  if i.closed then i.low * scale ≤ num && num ≤ i.high * scale
  else i.low * scale < num && num < i.high * scale

/-- The better neighbour of the value among the multiples of `10 ^ -places`, if one of the
two lies in the interval. -/
def neighbour? (i : Interval) (places : Int) : Option Nat :=
  let scale := Nat.pow 10 places.toNat
  let step := i.denominator * Nat.pow 10 (-places).toNat
  let below := i.value * scale / step
  match i.admits (below * step) scale, i.admits ((below + 1) * step) scale with
  | true, true => some (nearestEven (i.value * scale) step)
  | true, false => some below
  | false, true => some (below + 1)
  | false, false => none

/-- The position of the leading digit of the value, provided that it stands no later than
the given number of places after the point. -/
def leadingExponent (i : Interval) (places : Nat) : Int :=
  let whole := i.value * Nat.pow 10 places / i.denominator
  Int.ofNat (Nat.toDigits 10 whole).length - 1 - Int.ofNat places

/-- The decimal with the fewest digits in the interval, at most `limit` of them, given that
the value is not below `10 ^ -places`. Of two with equally few digits it is the nearer
one, and of two equally near the one whose last digit is even. -/
def shortest (i : Interval) (limit places : Nat) : Decimal :=
  let leading := i.leadingExponent places
  let found := (List.range limit).findSome? fun extra =>
    let finest := Int.ofNat extra - leading
    (i.neighbour? finest).map (ofScaled · finest)
  found.getD (ofScaled (nearestEven i.value i.denominator) 0)

end Interval

end Decimal

end RowMajor
