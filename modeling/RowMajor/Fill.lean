import RowMajor.Operand.Nesting

/-!
# Fill values

An operation that has to supply elements that are not there asks the caller's fill
value for them. At most one fill value is given, and each kind decides whether it can
use it: numeric kinds take a numeric scalar that they can store exactly, characters a
character scalar, and a box can hold anything.

Bytes, characters and boxes take the element of a scalar of their own kind as it is. If
that is an element of another kind, only mixed values have room for it.
-/

namespace RowMajor

/-- At most one fill value. -/
structure Fill where
  value : Option Value

/-- An element to fill with, or the reason why there is none. -/
abbrev Filler (α : Type) := Except MissingFill α

namespace Kind

/-- The element of a kind that a value stands for when it is used as a fill. -/
def fillElement? : (k : Kind) → Value → Option k.Element
  | .number, .number ⟨[], [x]⟩ => some x
  | .number, .byte ⟨[], [b]⟩ => some (Binary64.ofByte b)
  | .number, .mixed .number ⟨[], [x]⟩ | .number, .mixed .byte ⟨[], [x]⟩ => x.real?
  | .byte, .byte ⟨[], [b]⟩ => some b
  | .byte, .number ⟨[], [x]⟩ => x.toInt?.bind byteOfInt?
  | .byte, .mixed .number ⟨[], [x]⟩ => (x.real?.bind Binary64.toInt?).bind byteOfInt?
  | .complex, .complex ⟨[], [z]⟩ => some z
  | .complex, .number ⟨[], [x]⟩ => some (Complex.ofReal x)
  | .complex, .byte ⟨[], [b]⟩ => some (Complex.ofReal (Binary64.ofByte b))
  | .complex, .mixed .complex ⟨[], [x]⟩ | .complex, .mixed .number ⟨[], [x]⟩
  | .complex, .mixed .byte ⟨[], [x]⟩ => x.complex?
  | .character, .character ⟨[], [c]⟩ => some c
  | .box, .box ⟨[], [v]⟩ => some v
  | .box, .mixed .box ⟨[], [_]⟩ => none
  | .box, v => some v
  | _, _ => none

/-- The element with which a mixed value that goes by a kind is filled. -/
def fillItem? : Kind → Value → Option (Item Value)
  | .byte, .mixed .byte ⟨[], [x]⟩ => some x
  | .character, .mixed .character ⟨[], [x]⟩ => some x
  | .box, .mixed .box ⟨[], [x]⟩ => some x
  | k, v => (k.fillElement? v).map k.item

end Kind

/-- The element of a form that a value stands for when it is used as a fill. -/
def Form.fillElement? : (f : Form) → Value → Option f.Element
  | .uniform k, v => k.fillElement? v
  | .mixed k, v => k.fillItem? v

namespace Fill

def none : Fill :=
  ⟨Option.none⟩

def ofOperand (x : Operand) : Except Error Fill := do
  .ok ⟨some (← x.toValue)⟩

def element? (fill : Fill) (f : Form) : Option f.Element :=
  fill.value.bind f.fillElement?

/-- Whether there is an element to fill values of the kind with. -/
def fills (fill : Fill) (k : Kind) : Bool :=
  (fill.element? (.mixed k)).isSome

/-- Whether there is a fill element, but a value of the form has no room for it. -/
def overflows (fill : Fill) (f : Form) : Bool :=
  fill.fills f.kind && (fill.element? f).isNone

/-- What a message says about a missing fill element of the kind. -/
def missing (fill : Fill) (k : Kind) : MissingFill :=
  match fill.value with
  | some v => .unusable v.kind k
  | Option.none => .absent

def filler (fill : Fill) (f : Form) : Filler f.Element :=
  match fill.element? f with
  | some x => .ok x
  | Option.none => .error (fill.missing f.kind)

end Fill

end RowMajor
