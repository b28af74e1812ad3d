import RowMajor.Binary64.Basic

/-!
# Rounding to the nearest number

Whole numbers and decimal numerals become floating-point numbers by rounding to the
nearest one, and a value halfway between two goes to the one of even rank. Because a
rank is at the same time a bit pattern, rounding up past the end of one run of
exponents lands on the first number of the next without a special case.
-/

namespace RowMajor

/-- The integer nearest to `num / den`; of two equally near, the even one. -/
def nearestEven (num den : Nat) : Nat :=
  let quotient := num / den
  let twice := 2 * (num % den)
  if twice < den then quotient
  else if den < twice then quotient + 1
  else quotient + quotient % 2

namespace Binary64

/-- The rank of the magnitude nearest to `num / den` units, with no limit at the top. -/
def nearestRank (num den : Nat) : Nat :=
  let run := (num / den).log2 - runLength.log2
  run * runLength + nearestEven num (den <<< run)

/-- The number nearest to `num / den`, with the given sign. -/
def ofRatio (negative : Bool) (num den : Nat) : Binary64 :=
  ofRank negative (nearestRank (num * unitsPerOne) den)

/-- The number itself, unless it is infinite. -/
def bounded? : Binary64 → Option Binary64
  | .infinity _ => none
  | x => some x

/-- A natural number below `2 ^ 53` is stored as it is. -/
def ofSmallNat (n : Nat) : Binary64 :=
  ofRatio false n 1

/-- As `ofSmallNat`, for integers of either sign. -/
def ofSmallInt (n : Int) : Binary64 :=
  ofRatio (decide (n < 0)) n.natAbs 1

/-- The number nearest to an integer, unless the integer lies beyond all finite ones. -/
def ofInt? (n : Int) : Option Binary64 :=
  (ofSmallInt n).bounded?

def ofByte (b : UInt8) : Binary64 :=
  ofSmallNat b.toNat

/-- The number nearest to `digits * 10 ^ exponent`. A numeral far outside the range of the
format becomes an infinity or a zero without its power of ten being written out. -/
def ofDecimal (negative : Bool) (digits : Nat) (exponent : Int) : Binary64 :=
  if digits = 0 ∨ 3 * exponent + Int.ofNat digits.log2 < -1080 then ofRank negative 0
  else if 400 < exponent then .infinity negative
  else if 0 ≤ exponent then ofRatio negative (digits * Nat.pow 10 exponent.toNat) 1
  else ofRatio negative digits (Nat.pow 10 (-exponent).toNat)

end Binary64

end RowMajor
