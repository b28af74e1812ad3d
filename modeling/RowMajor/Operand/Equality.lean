import RowMajor.Operand.Basic
import RowMajor.Value.Key

/-!
# Equality of operands

Two arrays are equal when their keys are, and so are two bare boxes when the keys of
their contents are. Plain data compares by content: numbers exactly, whatever their
type, texts by their characters and lists item by item. A NaN outside a value equals
nothing, and data of different sorts is never equal.
-/

namespace RowMajor

namespace Binary64

/-- Equality of plain numbers: the two zeros are equal and a NaN equals nothing. -/
def equals (x y : Binary64) : Bool :=
  x ≠ .nan && x.key == y.key

end Binary64

namespace Operand

/-- The real and the imaginary part of a numeric operand; the real part keeps its type. -/
def parts? : Operand → Option ((Int ⊕ Binary64) × Binary64)
  | .integer n => some (.inl n, .zero)
  | .truth b => some (.inl (Int.ofNat b.toNat), .zero)
  | .real x => some (.inr x, .zero)
  | .complex z => some (.inr z.re, z.im)
  | _ => none

def equalParts : Int ⊕ Binary64 → Int ⊕ Binary64 → Bool
  | .inl m, .inl n => m == n
  | .inl n, .inr x | .inr x, .inl n => x.toInt? == some n
  | .inr x, .inr y => x.equals y

mutual

def equals : Operand → Operand → Bool
  | .text cs, .text ds => cs == ds
  | .list xs, .list ys => equalItems xs ys
  | .boxed v, .boxed w => v.key == w.key
  | .value v, .value w => v.key == w.key
  | x, y =>
    match x.parts?, y.parts? with
    | some (a, b), some (c, d) => equalParts a c && b.equals d
    | _, _ => false

def equalItems : List Operand → List Operand → Bool
  | [], [] => true
  | x :: xs, y :: ys => equals x y && equalItems xs ys
  | _, _ => false

end

end Operand

/-- For every item the position of the first one equal to it. -/
def firstEqual [BEq α] (items : List α) : List Nat :=
  items.map fun x => items.findIdx (· == x)

end RowMajor
