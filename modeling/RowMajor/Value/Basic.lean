import RowMajor.Complex
import RowMajor.Grid.Basic

/-!
# Values

A value is a grid that goes by a kind: numbers, bytes, complex numbers, characters, or
boxes. A box holds a whole value, so values nest.

As a rule all elements of a value are of its own kind, and the value is called uniform.
Rows of other kinds can be put together under a kind as well; they keep their elements
as they are, and the value is mixed. The form of a value says which of the two it is.

`Value.form` and `Value.grid` take a value apart and `Value.ofGrid` puts it together
again. An operation that treats every form alike is written once for a grid of
unknown elements and then applied through these three.
-/

namespace RowMajor

/-- The five kinds of element. -/
inductive Kind where
  | number
  | byte
  | complex
  | character
  | box
deriving DecidableEq

/-- An element of any kind. That of a box is what the box holds. -/
inductive Item (β : Type) where
  | number (x : Binary64)
  | byte (b : UInt8)
  | complex (z : Complex)
  | character (c : Char)
  | box (content : β)

inductive Value where
  | number (grid : Grid Binary64)
  | byte (grid : Grid UInt8)
  | complex (grid : Grid Complex)
  | character (grid : Grid Char)
  | box (grid : Grid Value)
  /-- A value that goes by a kind whatever the kinds of its elements. -/
  | mixed (kind : Kind) (grid : Grid (Item Value))

/-- What a uniform grid of each kind holds. The element of a box grid is the boxed value. -/
abbrev Kind.Element : Kind → Type
  | .number => Binary64
  | .byte => UInt8
  | .complex => Complex
  | .character => Char
  | .box => Value

/-- How a value holds its elements. -/
inductive Form where
  | uniform (kind : Kind)
  | mixed (kind : Kind)
deriving DecidableEq

namespace Kind

/-- The kind as it is named in messages. -/
def name : Kind → String
  | .number => "number"
  | .byte => "byte"
  | .complex => "complex"
  | .character => "character"
  | .box => "box"

/-- The name of the grids of a kind, as it stands at the front of a written value. -/
def gridName : Kind → String
  | .number => "NumArray"
  | .byte => "ByteArray"
  | .complex => "ComplexArray"
  | .character => "CharArray"
  | .box => "BoxArray"

end Kind

/-- The element of a kind as one of any kind. -/
def Kind.item : (k : Kind) → k.Element → Item Value
  | .number, x => .number x
  | .byte, b => .byte b
  | .complex, z => .complex z
  | .character, c => .character c
  | .box, v => .box v

namespace Form

def kind : Form → Kind
  | .uniform k => k
  | .mixed k => k

abbrev Element : Form → Type
  | .uniform k => k.Element
  | .mixed _ => Item Value

def item : (f : Form) → f.Element → Item Value
  | .uniform k, x => k.item x
  | .mixed _, x => x

end Form

namespace Value

def form : Value → Form
  | .number _ => .uniform .number
  | .byte _ => .uniform .byte
  | .complex _ => .uniform .complex
  | .character _ => .uniform .character
  | .box _ => .uniform .box
  | .mixed k _ => .mixed k

def kind (v : Value) : Kind :=
  v.form.kind

def grid : (v : Value) → Grid v.form.Element
  | .number a => a
  | .byte a => a
  | .complex a => a
  | .character a => a
  | .box a => a
  | .mixed _ a => a

def ofGrid : (f : Form) → Grid f.Element → Value
  | .uniform .number, a => .number a
  | .uniform .byte, a => .byte a
  | .uniform .complex, a => .complex a
  | .uniform .character, a => .character a
  | .uniform .box, a => .box a
  | .mixed k, a => .mixed k a

@[simp] theorem ofGrid_grid (v : Value) : ofGrid v.form v.grid = v := by
  cases v <;> rfl

@[simp] theorem form_ofGrid (f : Form) (a : Grid f.Element) : (ofGrid f a).form = f := by
  match f with
  | .uniform k => cases k <;> rfl
  | .mixed _ => rfl

@[simp] theorem kind_ofGrid (f : Form) (a : Grid f.Element) : (ofGrid f a).kind = f.kind := by
  rw [kind, form_ofGrid]

def shape (v : Value) : Shape :=
  v.grid.shape

def rank (v : Value) : Nat :=
  v.shape.length

def elementCount (v : Value) : Nat :=
  v.grid.items.length

@[simp] theorem shape_ofGrid (f : Form) (a : Grid f.Element) : (ofGrid f a).shape = a.shape := by
  match f with
  | .uniform k => cases k <;> rfl
  | .mixed _ => rfl

/-- Apply a change of grids that works for every form. -/
def map (change : {f : Form} → Grid f.Element → Grid f.Element) (v : Value) : Value :=
  ofGrid v.form (change v.grid)

/-- The same elements under another shape. -/
def withShape (s : Shape) (v : Value) : Value :=
  v.map (·.withShape s)

def rows (v : Value) : List Value :=
  v.grid.rows.map (ofGrid v.form)

/-- The grid of a value, if it is of the given form. -/
def gridOf? (f : Form) (v : Value) : Option (Grid f.Element) :=
  if h : v.form = f then some (h ▸ v.grid) else none

/-- The elements as elements of any kind. -/
def itemGrid (v : Value) : Grid (Item Value) :=
  v.grid.map v.form.item

/-- The same value, free to hold elements of other kinds. -/
def loosen (v : Value) : Value :=
  .mixed v.kind v.itemGrid

/-- The value is uniform, and every grid has as many elements as its shape says, those inside
boxes included. -/
inductive WellFormed : Value → Prop where
  | number {a : Grid Binary64} (h : a.WellFormed) : WellFormed (.number a)
  | byte {a : Grid UInt8} (h : a.WellFormed) : WellFormed (.byte a)
  | complex {a : Grid Complex} (h : a.WellFormed) : WellFormed (.complex a)
  | character {a : Grid Char} (h : a.WellFormed) : WellFormed (.character a)
  | box {a : Grid Value} (h : a.WellFormed) (inner : ∀ v ∈ a.items, WellFormed v) :
    WellFormed (.box a)

end Value

end RowMajor
