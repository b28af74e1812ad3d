import RowMajor.Decimal.Shortest

/-!
# Layouts of decimals

Where a decimal is written out in full and where in scientific form, and how either
form looks, is a matter of convention. A `Layout` records the convention once, and
`Layout.write` follows it.
-/

namespace RowMajor.Decimal

/-- How decimals are written. -/
structure Layout where
  /-- The least and the greatest position of the leading digit that is written in full. -/
  lowest : Int
  highest : Int
  /-- What ends a whole number that is written in full. -/
  wholeEnding : String
  /-- The least number of digits in the exponent of the scientific form. -/
  exponentWidth : Nat

namespace Layout

def zeros (n : Nat) : List Char :=
  List.replicate n '0'

def writeFull (l : Layout) (d : Decimal) : String :=
  if d.exponent < 0 then
    String.ofList ('0' :: '.' :: zeros (-d.exponent - 1).toNat ++ d.digits)
  else
    let whole := d.exponent.toNat + 1
    let front := d.digits.take whole ++ zeros (whole - d.digits.length)
    match d.digits.drop whole with
    | [] => String.ofList front ++ l.wholeEnding
    | rest => String.ofList (front ++ '.' :: rest)

def writeScientific (l : Layout) (d : Decimal) : String :=
  let mantissa := match d.digits with
    | first :: second :: rest => first :: '.' :: second :: rest
    | short => short
  let exponent := Nat.toDigits 10 d.exponent.natAbs
  let sign := if d.exponent < 0 then '-' else '+'
  String.ofList (mantissa ++ 'e' :: sign :: zeros (l.exponentWidth - exponent.length) ++ exponent)

def write (l : Layout) (d : Decimal) : String :=
  if l.lowest ≤ d.exponent ∧ d.exponent ≤ l.highest then l.writeFull d else l.writeScientific d

end Layout

end RowMajor.Decimal
