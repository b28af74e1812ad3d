import RowMajor.Fill

/-!
# Conversion between kinds

Numeric kinds form a ladder from bytes over numbers to complex numbers. Two values of
different numeric kinds meet at the higher one, and anything meets a box by having its
elements boxed one by one. `Value.unify` brings two values together in this way and
returns them as two grids of one form.
-/

namespace RowMajor

namespace Kind

/-- The place of a numeric kind on the ladder. -/
def rung? : Kind → Option Nat
  | .byte => some 0
  | .number => some 1
  | .complex => some 2
  | .character | .box => none

/-- The kind at which values of two kinds meet, if there is one. -/
def meet? (a b : Kind) : Option Kind :=
  if a = b then some a
  else
    match a.rung?, b.rung? with
    | some m, some n => some (if m < n then b else a)
    | _, _ => if a = .box ∨ b = .box then some .box else none

end Kind

namespace Value

/-- The same value in another kind. A value of that kind already stays as it is. -/
def convert (target : Kind) (v : Value) : Except Error Value :=
  if v.kind = target then .ok v
  else do
    let items ← v.leaves.items.mapM target.coerce
    .ok (.ofGrid (.uniform target) ⟨v.shape, items⟩)

/-- Every element in a box of its own; boxes stay as they are. -/
def boxElements : Value → Value
  | .number a => .box (a.map fun x => .number (.scalar x))
  | .byte a => .box (a.map fun b => .byte (.scalar b))
  | .complex a => .box (a.map fun z => .complex (.scalar z))
  | .character a => .box (a.map fun c => .character (.scalar c))
  | .box a => .box a
  | .mixed .box a => .mixed .box a
  | .mixed k a => .box (a.map fun x => .mixed k (.scalar x))

end Value

/-- Two grids of the same form. -/
structure Unified where
  form : Form
  first : Grid form.Element
  second : Grid form.Element

namespace Unified

def kind (both : Unified) : Kind :=
  both.form.kind

/-- Two values of one kind. They are mixed if one of them is. -/
def ofSameKind (a b : Value) : Unified :=
  match b.gridOf? a.form with
  | some second => ⟨a.form, a.grid, second⟩
  | none => ⟨.mixed a.kind, a.itemGrid, b.itemGrid⟩

/-- The same grids, free to hold elements of other kinds. -/
def loosen (both : Unified) : Unified :=
  ⟨.mixed both.kind, both.first.map both.form.item, both.second.map both.form.item⟩

/-- The same grids in a form that has room for the fill element. -/
def loosenFor (fill : Fill) (both : Unified) : Unified :=
  if fill.overflows both.form then both.loosen else both

end Unified

namespace Value

/-- Two values brought to one kind step by step. -/
def unifyAny (pairing : Pairing) (a b : Value) : Except Error Unified :=
  match a.kind.meet? b.kind with
  | some .box => .ok (.ofSameKind a.boxElements b.boxElements)
  | some k => do .ok (.ofSameKind (← a.convert k) (← b.convert k))
  | none => .error (.kind (.unmatched pairing a.kind b.kind))

/-- Two values brought to one kind, if there is a kind that holds both. -/
def unify (pairing : Pairing) : Value → Value → Except Error Unified
  | .number a, .number b => .ok ⟨.uniform .number, a, b⟩
  | .number a, .byte b => .ok ⟨.uniform .number, a, b.map .ofByte⟩
  | .number a, .complex b => .ok ⟨.uniform .complex, a.map .ofReal, b⟩
  | .byte a, .byte b => .ok ⟨.uniform .byte, a, b⟩
  | .byte a, .number b => .ok ⟨.uniform .number, a.map .ofByte, b⟩
  | .byte a, .complex b => .ok ⟨.uniform .complex, a.map fun x => .ofReal (.ofByte x), b⟩
  | .complex a, .complex b => .ok ⟨.uniform .complex, a, b⟩
  | .complex a, .number b => .ok ⟨.uniform .complex, a, b.map .ofReal⟩
  | .complex a, .byte b => .ok ⟨.uniform .complex, a, b.map fun x => .ofReal (.ofByte x)⟩
  | .character a, .character b => .ok ⟨.uniform .character, a, b⟩
  | .box a, .box b => .ok ⟨.uniform .box, a, b⟩
  | a, b => unifyAny pairing a b

/-- The same value in a form that has room for the fill element. -/
def loosenFor (fill : Fill) (v : Value) : Value :=
  if fill.overflows v.form then v.loosen else v

/-- Bytes become numbers where only a number fill can be used. -/
def promoteFor (fill : Fill) : Value → Except Error Value
  | .byte a =>
    if fill.fills .number ∧ ¬ fill.fills .byte then .ok (.number (a.map .ofByte))
    else .ok (Value.loosenFor fill (.byte a))
  | .mixed .byte a =>
    if fill.fills .number ∧ ¬ fill.fills .byte then convert .number (.mixed .byte a)
    else .ok (.mixed .byte a)
  | v => .ok (v.loosenFor fill)

end Value

end RowMajor
