import RowMajor.Decimal.Layout

/-!
# Numbers as text

A number is written with the fewest digits that read back as that number. Numbers
between `10 ^ -4` and `10 ^ 16` are written in full and a whole one shows that it is
not an integer by a final `.0`. As a part of a complex number it goes without.
-/

namespace RowMajor.Binary64

/-- The decimals that round to the magnitude of a given rank, in half units: they reach
halfway to both neighbours, and a decimal exactly halfway rounds to the even rank. -/
def interval (rank : Nat) : Decimal.Interval where
  low := unitsAt (rank - 1) + unitsAt rank
  value := 2 * unitsAt rank
  high := unitsAt rank + unitsAt (rank + 1)
  denominator := 2 * unitsPerOne
  closed := rank % 2 == 0

/-- Seventeen digits tell any two numbers apart, and none but zero is below `10 ^ -324`. -/
def shortest (rank : Nat) : Decimal :=
  (interval rank).shortest 17 324

def numberLayout : Decimal.Layout where
  lowest := -4
  highest := 15
  wholeEnding := ".0"
  exponentWidth := 2

/-- The parts of complex numbers are laid out as numbers are, but for the final `.0`. -/
def partLayout : Decimal.Layout :=
  { numberLayout with wholeEnding := "" }

def magnitudeText (layout : Decimal.Layout) (rank : Nat) : String :=
  if rank = 0 then "0" ++ layout.wholeEnding else layout.write (shortest rank)

def textWith (layout : Decimal.Layout) : Binary64 → String
  | .finite negative rank => (if negative then "-" else "") ++ magnitudeText layout rank.val
  | .infinity negative => if negative then "-inf" else "inf"
  | .nan => "nan"

def text (x : Binary64) : String :=
  x.textWith numberLayout

end RowMajor.Binary64
