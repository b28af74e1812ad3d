import RowMajor.Buffer.Fault
import RowMajor.Value.Conversion

/-!
# Rows taken apart and put together

Stacking makes rows of one shape into a grid with one more axis, and is undone by
taking the rows of that grid. Joining puts the rows of two grids behind one another; a
grid with one axis less than the other counts as a single row. Resizing cuts or pads
every axis at its end.
-/

namespace RowMajor

namespace Grid

variable {α : Type}

/-- Rows put one behind another. Without any rows the row shape has to be given. -/
def ofRows (rowShape : Shape) (rows : List (Grid α)) : Except Error (Grid α) :=
  match stack rowShape rows with
  | .ok a => .ok a
  | .error (first, other) => .error (.shape (.rowShapes first other))

/-- The row at a position, as the part of the elements that belongs to it. -/
def rowAt (i : Int) (a : Grid α) : Except Error (Grid α) :=
  let size := Shape.size a.rowShape
  let start := i * size
  let stop := start + size
  if start < 0 ∨ size < 0 ∨ Int.ofNat a.items.length < stop then
    .error (.buffer (.slice start (some stop) a.items.length))
  else .ok ⟨a.rowShape, (a.items.drop start.toNat).take size.toNat⟩

/-- The rows of one grid followed by those of another. Two grids without axes make a
vector of two elements. -/
def join (a b : Grid α) : Except Error (Grid α) :=
  let items := a.items ++ b.items
  if a.rank = b.rank ∧ a.rowShape = b.rowShape then
    .ok ⟨(a.rowCount + b.rowCount) :: a.rowShape, items⟩
  else if a.rank + 1 = b.rank ∧ a.shape = b.rowShape then
    .ok ⟨(b.rowCount + 1) :: b.rowShape, items⟩
  else if b.rank + 1 = a.rank ∧ b.shape = a.rowShape then
    .ok ⟨(a.rowCount + 1) :: a.rowShape, items⟩
  else .error (.shape (.join a.shape b.shape))

/-- Every axis cut or padded at its end to the target shape, where missing leading axes
count as axes of length one. -/
def resize (kind : Kind) (target : Shape) (fill : α) (a : Grid α) : Except Error (Grid α) :=
  if target.length < a.rank then .error (.shape (.resize a.shape target))
  else
    let padded := a.withShape (List.replicate (target.length - a.rank) 1 ++ a.shape)
    if padded.shape = target then .ok padded
    else fit kind ⟨target, target.coordinates.map fun index => (padded.get? index).getD fill⟩

end Grid

namespace Value

/-- Rows put one behind another. The result goes by the given kind, and rows of other kinds
keep their elements as they are. -/
def ofRows (kind : Kind) (rowShape : Shape) (rows : List Value) : Except Error Value :=
  match rows.mapM (gridOf? (.uniform kind)) with
  | some grids => do .ok (.ofGrid (.uniform kind) (← Grid.ofRows rowShape grids))
  | none => do .ok (.mixed kind (← Grid.ofRows rowShape (rows.map itemGrid)))

/-- The rows of one value followed by those of another. The result goes by the kind of the
first, and the elements of the second stay as they are. -/
def join (a b : Value) : Except Error Value :=
  match b.gridOf? a.form with
  | some other => do .ok (.ofGrid a.form (← a.grid.join other))
  | none => do .ok (.mixed a.kind (← a.itemGrid.join b.itemGrid))

def rowAt (i : Int) (v : Value) : Except Error Value := do
  .ok (.ofGrid v.form (← v.grid.rowAt i))

end Value

end RowMajor
