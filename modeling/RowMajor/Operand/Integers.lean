import RowMajor.Operand.Nesting

/-!
# Integer operands

Counts, offsets, sizes and indices are given as operands whose elements must be
integers: bytes, or numbers without a fractional part. Each reader below names the
role in which the integers are needed, so that a refusal can say what was expected.

Whatever stands among bytes is given as it is, and a character among numbers is read as
a numeral.
-/

namespace RowMajor

/-- The integer that a number equals. -/
def Binary64.integer (role : Role) (x : Binary64) : Except Error Int :=
  match x.toInt? with
  | some n => .ok n
  | none => .error (.kind (.notInteger role x))

/-- The integer that an element equals which stands among numbers. -/
def Item.integer (role : Role) : Item Value → Except Error Int
  | .number x => x.integer role
  | .byte b => .ok (Int.ofNat b.toNat)
  | .character c =>
    if c.isDigit then .ok (Int.ofNat (c.toNat - '0'.toNat)) else .error (.notNumeral c)
  | x => .error (.kind (.element .number x.leaf))

/-- The integer for which an element counts that stands among bytes. -/
def Item.whole : Item Value → Int
  | .number x => x.truncate
  | .byte b => Int.ofNat b.toNat
  | _ => 0

def Operand.isNegative : Operand → Bool
  | .integer n => decide (n < 0)
  | .real x => x.isNegative && !x.isZero
  | _ => false

namespace Value

/-- All elements as integers. -/
def integers (role : Role) : Value → Except Error (List Int)
  | .byte a => .ok (a.items.map fun b => Int.ofNat b.toNat)
  | .number a => a.items.mapM (Binary64.integer role)
  | .mixed .byte a => .ok (a.items.map Item.whole)
  | .mixed .number a => a.items.mapM (Item.integer role)
  | v => .error (.kind (.notNumeric role v.kind))

/-- The integers as they are given. -/
def givenIntegers (role : Role) : Value → Except Error (List Operand)
  | .mixed .byte a => .ok (a.items.map Item.leaf)
  | v => do .ok ((← v.integers role).map Operand.integer)

/-- The integers of a scalar or a vector. -/
def integerList (role : Role) (v : Value) : Except Error (List Int) :=
  if 1 < v.rank then .error (.shape (.operandRank role v.rank)) else v.integers role

/-- The natural numbers of a scalar or a vector. -/
def naturalList (role : Role) (v : Value) : Except Error (List Nat) := do
  let ints ← v.integerList role
  match (← v.givenIntegers role).find? Operand.isNegative with
  | some x => .error (.kind (.negative role x))
  | none => .ok (ints.map Int.toNat)

/-- The integer of a scalar. -/
def integer (role : Role) (v : Value) : Except Error Int := do
  if v.rank ≠ 0 then .error (.shape (.operandRank role v.rank))
  else
    let ints ← v.integers role
    .ok (ints.headD 0)

/-- The natural number of a scalar, if the value is one. -/
def natural? : Value → Option Nat
  | .number ⟨[], [x]⟩ => x.toNat?
  | .byte ⟨[], [b]⟩ => some b.toNat
  | .mixed .number ⟨[], [x]⟩ | .mixed .byte ⟨[], [x]⟩ => x.real?.bind Binary64.toNat?
  | _ => none

/-- The integers under their own shape. -/
def integerGrid (role : Role) (v : Value) : Except Error (Grid Int) := do
  let ints ← v.integers role
  .ok ⟨v.shape, ints⟩

end Value

namespace Operand

def asIntegers (role : Role) (x : Operand) : Except Error (List Int) := do
  (← x.toValue).integerList role

def asNaturals (role : Role) (x : Operand) : Except Error (List Nat) := do
  (← x.toValue).naturalList role

def asInteger (role : Role) (x : Operand) : Except Error Int := do
  (← x.toValue).integer role

/-- The natural number that an operand is, if it is one. A lone character among numbers or bytes
would have to be read as one. -/
def asNatural? (x : Operand) : Except Error (Option Nat) := do
  match ← x.toValue with
  | .mixed .number ⟨[], [.character c]⟩ | .mixed .byte ⟨[], [.character c]⟩ =>
    .error (.notNumeral c)
  | v => .ok v.natural?

def asIntegerGrid (role : Role) (x : Operand) : Except Error (Grid Int) := do
  (← x.toValue).integerGrid role

end Operand

end RowMajor
