/-!
# Binary floating-point numbers of 64 bits

The finite magnitudes of the format are listed in increasing order, from zero to
the largest one, and a finite number is a sign together with a rank in that list.
The rank of a magnitude is also its bit pattern without the sign, so reading and
writing bit patterns costs nothing, and the numbers compare as their ranks do.

Every finite magnitude is a whole number of units of `2 ^ -1074`. Questions about
values, such as whether a number is integral or lies below an integer, are asked of
that whole number and answered exactly. There is one NaN: nothing in this library
can tell two of them apart.
-/

namespace RowMajor

/-- The number of magnitudes that share an exponent. -/
abbrev Binary64.runLength : Nat := 0x10000000000000

inductive Binary64 where
  /-- A sign and the rank of the magnitude among the finite ones, which fill 2047 runs. -/
  | finite (negative : Bool) (rank : Fin (2047 * Binary64.runLength))
  | infinity (negative : Bool)
  | nan
deriving DecidableEq

namespace Binary64

/-- How many units make one. -/
def unitsPerOne : Nat := 1 <<< 1074

/-- The magnitude of a given rank, in units. The ranks of the first run count units, and so
do those of the second; from there on each further run takes steps twice as long. The
value for the first rank past the list is where the next magnitude would stand. -/
def unitsAt (rank : Nat) : Nat :=
  if rank < runLength then rank
  else (runLength + rank % runLength) <<< (rank / runLength - 1)

/-- The number of a given sign and rank; past the last rank lies infinity. -/
def ofRank (negative : Bool) (rank : Nat) : Binary64 :=
  if h : rank < 2047 * runLength then .finite negative ⟨rank, h⟩ else .infinity negative

/-- Zero with a plus sign. -/
def zero : Binary64 := ofRank false 0

def negativeZero : Binary64 := ofRank true 0

def isNegative : Binary64 → Bool
  | .finite negative _ => negative
  | .infinity negative => negative
  | .nan => false

def isZero : Binary64 → Bool
  | .finite _ rank => rank.val == 0
  | _ => false

/-- Equal numbers have the same key: the two zeros share one, and so do all NaNs. -/
def key : Binary64 → Binary64
  | .finite negative rank => if rank.val = 0 then zero else .finite negative rank
  | x => x

/-- What the bit of the sign counts for. -/
def signPlace : Nat := 1 <<< 63

/-- The number with the given 64 bits: sign, eleven bits of exponent, fraction. -/
def ofBits (bits : Nat) : Binary64 :=
  let magnitude := bits % signPlace
  if magnitude ≤ 2047 * runLength then ofRank (bits / signPlace % 2 == 1) magnitude else .nan

def signBit (negative : Bool) : Nat :=
  if negative then signPlace else 0

/-- The 64 bits of a number. The NaN is the quiet one with an empty payload. -/
def toBits : Binary64 → Nat
  | .finite negative rank => signBit negative + rank.val
  | .infinity negative => signBit negative + 2047 * runLength
  | .nan => 2047 * runLength + runLength / 2

/-- The integer that a number equals, if it equals one. -/
def toInt? : Binary64 → Option Int
  | .finite negative rank =>
    let units := unitsAt rank
    if units % unitsPerOne = 0 then
      let magnitude := Int.ofNat (units / unitsPerOne)
      some (if negative then -magnitude else magnitude)
    else none
  | _ => none

/-- The integer that is left of a number when its fraction is cut off. -/
def truncate : Binary64 → Int
  | .finite negative rank =>
    let magnitude := Int.ofNat (unitsAt rank / unitsPerOne)
    if negative then -magnitude else magnitude
  | _ => 0

/-- The natural number that a number equals, if it equals one. -/
def toNat? (x : Binary64) : Option Nat :=
  x.toInt?.bind fun n => if n < 0 then none else some n.toNat

end Binary64

end RowMajor
