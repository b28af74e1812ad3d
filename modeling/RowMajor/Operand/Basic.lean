import RowMajor.Value.Text

/-!
# Operands

Operations accept values, but also plain data that has not been made into a value yet:
integers, numbers, truth values, complex numbers, texts, and lists of such data nested
to any depth. A bare box may stand among them as a single element.

Messages show operands as they are written here, and name them by their type.
-/

namespace RowMajor

inductive Operand where
  | integer (n : Int)
  | real (x : Binary64)
  | truth (b : Bool)
  | complex (z : Complex)
  | text (characters : List Char)
  | list (items : List Operand)
  /-- A box that is not yet an element of a value. -/
  | boxed (content : Value)
  | value (v : Value)

namespace Operand

def typeName : Operand → String
  | .integer _ => "int"
  | .real _ => "float"
  | .truth _ => "bool"
  | .complex _ => "complex"
  | .text _ => "str"
  | .list _ => "list"
  | .boxed _ => "Boxed"
  | .value v => v.kind.gridName

mutual

def written : Operand → String
  | .integer n => toString n
  | .real x => x.text
  | .truth b => if b then "True" else "False"
  | .complex z => z.text
  | .text characters => Text.quoted characters
  | .list items => Text.listText (writtenItems items)
  | .boxed content => content.boxedText
  | .value v => v.text

def writtenItems : List Operand → List String
  | [] => []
  | item :: items => item.written :: writtenItems items

end

/-- Whether an operand is a real number: an integer, a number or a truth value. -/
def isReal : Operand → Bool
  | .integer _ | .real _ | .truth _ => true
  | _ => false

def isNumeric : Operand → Bool
  | .complex _ => true
  | x => x.isReal

def isText : Operand → Bool
  | .text _ => true
  | _ => false

end Operand

/-- An element taken out of its value. -/
def Item.leaf : Item Value → Operand
  | .number x => .real x
  | .byte b => .integer (Int.ofNat b.toNat)
  | .complex z => .complex z
  | .character c => .text [c]
  | .box v => .boxed v

/-- An element of a form taken out of its value. -/
def Form.leaf (f : Form) (x : f.Element) : Operand :=
  (f.item x).leaf

/-- The elements of a value as operands. -/
def Value.leaves (v : Value) : Grid Operand :=
  v.grid.map v.form.leaf

end RowMajor
