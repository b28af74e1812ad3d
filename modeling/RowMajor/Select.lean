import RowMajor.Grid.Points
import RowMajor.Grid.Stacking
import RowMajor.Index
import RowMajor.Operand.Integers

/-!
# Selecting rows

Every index of an array selects one row, and the shape of the index array takes the
place of the leading axis. An index out of bounds selects a row of fill elements.
Undoing a selection writes the rows back where they came from, each to a place of its
own.
-/

namespace RowMajor

namespace Grid

variable {α : Type}

/-- The items of the row at an index. -/
def selectRow (filler : Filler α) (a : Grid α) (i : Int) : Except Error (List α) :=
  if Shape.size a.rowShape < 0 then .error (.buffer .negativeCapacity)
  else
    match resolveIndex i a.rowCount with
    | some p => .ok ((a.items.drop (p * a.rowSize)).take a.rowSize)
    | none =>
      match filler with
      | .ok x => .ok (List.replicate a.rowSize x)
      | .error why => .error (.outside i a.rowCount 0 a.shape why.note)

/-- The rows at indices, one behind another. -/
def selectRows (filler : Filler α) (a : Grid α) (index : List Int) : Except Error (Grid α) := do
  let rows ← index.mapM (a.selectRow filler)
  .ok ⟨Int.ofNat index.length :: a.rowShape, rows.flatten⟩

/-- The rows that the indices name, gathered row by row of the index array. Where its rows have no
indices nothing is gathered, and an axis of negative length has no rows. -/
def selectNested (filler : Filler α) (a : Grid α) : Shape → List Int → Except Error (Grid α)
  | [], index => do .ok ((← a.selectRows filler index).withShape a.rowShape)
  | [_], index => a.selectRows filler index
  | d :: e :: s, index =>
    let below : Shape := e :: s
    if below.size = 0 then .ok ⟨d :: below ++ a.rowShape, []⟩
    else do
      let count := index.length / below.volume
      let rows ← (pieces below.volume count index).mapM (selectNested filler a below)
      ofRows (below ++ a.rowShape) rows

/-- The rows that an array of indices names. -/
def select (filler : Filler α) (index : Grid Int) (a : Grid α) : Except Error (Grid α) :=
  selectNested filler a index.shape index.items

def rowPlace (a : Grid α) (i : Int) : Except Error Nat :=
  match resolveIndex i a.rowCount with
  | some p => .ok p
  | none => .error (.outside i a.rowCount 0 a.shape "")

/-- Write selected rows back to the places that the indices name. -/
def unselect (index : Grid Int) (selected into : Grid α) : Except Error (Grid α) := do
  let places ← index.items.mapM into.rowPlace
  let expected := index.shape ++ into.rowShape
  if ¬ places.Nodup then .error (.inverse (.duplicates .select))
  else if selected.shape ≠ expected then
    .error (.inverse (.gatheredShape .select expected selected.shape))
  else
    let rows := pieces into.rowSize places.length selected.items
    .ok (into.writeCells (places.map ([·])) rows)

end Grid

namespace Value

def select (fill : Fill) (index : Grid Int) (v : Value) : Except Error Value := do
  let v ← v.promoteFor fill
  .ok (.ofGrid v.form (← Grid.select (fill.filler v.form) index v.grid))

def unselect (index : Grid Int) (selected into : Value) : Except Error Value := do
  let both ← unify .unselect selected into
  .ok (.ofGrid both.form (← Grid.unselect index both.first both.second))

end Value

/-- The rows of `value` that the indices name. -/
def select (indices value : Operand) (fill : Fill) : Except Error Value := do
  let index ← indices.asIntegerGrid .indexTable
  (← value.toValue).select fill index

/-- Write the rows of `selected` back over the rows of `into` that the indices name. -/
def unselect (selected indices into : Operand) : Except Error Value := do
  let index ← indices.asIntegerGrid .indexTable
  let selected ← selected.toValue
  Value.unselect index selected (← into.toValue)

end RowMajor
