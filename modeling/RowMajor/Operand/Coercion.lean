import RowMajor.Error

/-!
# Coercion of elements

`Kind.coerce` says which operands can be stored as an element of a kind. A real number
fits the numeric kinds, a byte has to be an integer from 0 to 255, a character is a
text of length one, and a box takes a bare box or a value. Integers are stored as the
nearest number; one that lies beyond all finite numbers fits no numeric kind.
-/

namespace RowMajor

namespace Operand

/-- The number nearest to a real operand. -/
def toReal? : Operand → Option (Except Error Binary64)
  | .integer n => some ((Binary64.ofInt? n).elim (.error .tooLarge) .ok)
  | .real x => some (.ok x)
  | .truth b => some (.ok (Binary64.ofSmallNat b.toNat))
  | _ => none

/-- The exact integer that a real operand equals, if there is one. -/
def toInt? : Operand → Option Int
  | .integer n => some n
  | .real x => x.toInt?
  | .truth b => some (Int.ofNat b.toNat)
  | _ => none

end Operand

/-- The number that an element of any kind is. -/
def Item.real? {β : Type} : Item β → Option Binary64
  | .number x => some x
  | .byte b => some (Binary64.ofByte b)
  | _ => none

/-- The complex number that an element of any kind is. -/
def Item.complex? {β : Type} : Item β → Option Complex
  | .complex z => some z
  | x => x.real?.map Complex.ofReal

/-- The byte of an integer from 0 to 255. -/
def byteOfInt? (n : Int) : Option UInt8 :=
  if 0 ≤ n ∧ n ≤ 255 then some (UInt8.ofNat n.toNat) else none

namespace Kind

def coerceNumber (item : Operand) : Except Error Binary64 :=
  item.toReal?.getD (.error (.kind (.element .number item)))

/-- A byte passes through a number on its way, so an integer may be too large for it. -/
def coerceByte (item : Operand) : Except Error UInt8 := do
  let _ ← item.toReal?.getD (.error (.kind (.element .byte item)))
  match item.toInt?.bind byteOfInt? with
  | some b => .ok b
  | none => .error (.kind (.element .byte item))

def coerceComplex : Operand → Except Error Complex
  | .complex z => .ok z
  | item => (item.toReal?.getD (.error (.kind (.element .complex item)))).map Complex.ofReal

def coerceCharacter : Operand → Except Error Char
  | .text [c] => .ok c
  | item => .error (.kind (.element .character item))

def coerceBox : Operand → Except Error Value
  | .boxed content => .ok content
  | .value v => .ok v
  | item => .error (.kind (.element .box item))

/-- The element of a kind that stores an operand. -/
def coerce : (k : Kind) → Operand → Except Error k.Element
  | .number => coerceNumber
  | .byte => coerceByte
  | .complex => coerceComplex
  | .character => coerceCharacter
  | .box => coerceBox

end Kind

end RowMajor
