import RowMajor.Grid.Fit
import RowMajor.Operand.Coercion

/-!
# Values from nested data

Nested lists describe a value when they are not ragged: all items of one list must
have the same shape. Among list items a text of one character is a single element and
any other text is the list of its characters. `Operand.flatten` finds the shape and the
leaves in row-major order, the leaves determine the kind, and each leaf becomes an
element. Leaves of different kinds are boxed one by one.

`Value.toOperand` goes back to nested lists, with every box opened.
-/

namespace RowMajor

namespace Grid

variable {α : Type}

/-- Rows put one behind another, or the first two shapes that disagree. Without any rows
the row shape has to be known. -/
def stack (rowShape : Shape) : List (Grid α) → Except (Shape × Shape) (Grid α)
  | [] => .ok ⟨0 :: rowShape, []⟩
  | row :: rows =>
    match rows.find? fun other => other.shape ≠ row.shape with
    | some other => .error (row.shape, other.shape)
    | none => .ok ⟨Int.ofNat (rows.length + 1) :: row.shape, (row :: rows).flatMap (·.items)⟩

end Grid

namespace Operand

mutual

/-- The shape and the leaves of nested data. -/
def flatten : Operand → Except Error (Grid Operand)
  | .list items => do
    let parts ← flattenItems items
    match Grid.stack [] parts with
    | .ok grid => .ok grid
    | .error _ => .error (.shape .ragged)
  | .text [c] => .ok (.scalar (.text [c]))
  | .text characters => .ok (.vector (characters.map fun c => .text [c]))
  | leaf => .ok (.scalar leaf)

def flattenItems : List Operand → Except Error (List (Grid Operand))
  | [] => .ok []
  | item :: items => do
    let part ← item.flatten
    let parts ← flattenItems items
    .ok (part :: parts)

end

/-- The narrowest kind that holds all the leaves. -/
def kindOf (leaves : List Operand) : Kind :=
  if leaves.all isReal then .number
  else if leaves.all isNumeric then .complex
  else if leaves.all isText then .character
  else .box

/-- A leaf as the content of a box of its own. -/
def boxLeaf : Operand → Except Error Value
  | .boxed content => .ok content
  | .value v => .ok v
  | .text [c] => .ok (.character (.scalar c))
  | .complex z => .ok (.complex (.scalar z))
  | leaf => do
    let x ← Kind.coerceNumber leaf
    .ok (.number (.scalar x))

/-- A leaf as an element of the given kind. -/
def leafElement : (k : Kind) → Operand → Except Error k.Element
  | .box => boxLeaf
  | k => k.coerce

/-- The leaves as elements under their own shape, or under the one asked for. -/
def build (kind : Kind) (shape : Option Shape) (nested : Grid Operand) :
    Except Error Value := do
  let nested := nested.withShape (shape.getD nested.shape)
  if nested.Fits then
    let items ← nested.items.mapM (leafElement kind)
    .ok (.ofGrid (.uniform kind) ⟨nested.shape, items⟩)
  else .error (.shape (.elementCount nested.items.length nested.shape))

/-- The value that an operand stands for. -/
def toValue : Operand → Except Error Value
  | .value v => .ok v
  | .boxed content => .ok (.box (.scalar content))
  | .text characters => .ok (.character (.vector characters))
  | x => do
    let nested ← x.flatten
    build (kindOf nested.items) none nested

/-- The value of a given kind that an operand stands for. A text without a shape is a vector
of its characters even if there is only one. -/
def toKind (kind : Kind) (shape : Option Shape) : Operand → Except Error Value
  | .text characters =>
    match kind, shape with
    | .character, none => .ok (.character (.vector characters))
    | _, _ => do build kind shape (← flatten (.text characters))
  | x => do build kind shape (← x.flatten)

/-- An item as the content of a box; an item that is nested is boxed as a whole. -/
def boxItem : Operand → Except Error Value
  | .boxed content => .ok content
  | .text [c] => .ok (.character (.scalar c))
  | x => x.toValue

/-- The items of a list, or the characters of a text. Anything else is its own single item. -/
def toItems : Operand → List Operand
  | .list items => items
  | .text characters => characters.map fun c => .text [c]
  | x => [x]

/-- A vector of boxes, one for each item. -/
def boxes (items : List Operand) : Except Error Value := do
  let contents ← items.mapM boxItem
  .ok (.box (.vector contents))

/-- A value without axes: a single element as it is, anything with axes in a box. -/
def scalar : Operand → Except Error Value
  | .text [c] => .ok (.character (.scalar c))
  | x => do
    let v ← x.toValue
    .ok (if v.shape = [] then v else .box (.scalar v))

end Operand

namespace Kind

/-- A value from a shape and elements that are coerced one by one, without flattening. -/
def construct (k : Kind) (shape : Shape) (items : List Operand) : Except Error Value := do
  let elements ← items.mapM k.coerce
  .ok (.ofGrid (.uniform k) (← Grid.fit k ⟨shape, elements⟩))

end Kind

namespace Operand

/-- Items in row-major order as nested lists of the given shape. -/
def nest : Shape → List Operand → Operand
  | [], items => items.headD (.list [])
  | d :: s, items => .list ((pieces (Shape.volume s) d.toNat items).map (nest s))

end Operand

namespace Value

mutual

/-- The elements as nested lists, with every box opened. -/
def toOperand : Value → Operand
  | .number a => .nest a.shape (a.items.map Operand.real)
  | .byte a => .nest a.shape (a.items.map fun b => .integer (Int.ofNat b.toNat))
  | .complex a => .nest a.shape (a.items.map Operand.complex)
  | .character a => .nest a.shape (a.items.map fun c => .text [c])
  | .box ⟨shape, items⟩ => .nest shape (contentOperands items)
  | .mixed _ ⟨shape, items⟩ => .nest shape (itemOperands items)

def contentOperands : List Value → List Operand
  | [] => []
  | v :: values => v.toOperand :: contentOperands values

def itemOperand : Item Value → Operand
  | .number x => .real x
  | .byte b => .integer (Int.ofNat b.toNat)
  | .complex z => .complex z
  | .character c => .text [c]
  | .box v => v.toOperand

def itemOperands : List (Item Value) → List Operand
  | [] => []
  | x :: items => itemOperand x :: itemOperands items

end

end Value

end RowMajor
