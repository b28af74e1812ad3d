import RowMajor.Grid.Fit
import RowMajor.Grid.Points
import RowMajor.Index
import RowMajor.Operand.Integers
import RowMajor.Value.Conversion

/-!
# Picking cells

A point with one component for each of some leading axes picks the cell below it. An
array of points picks one cell for each, and the arrangement of the points is the frame
of the result. A component out of bounds makes the whole cell a fill cell.

Undoing a pick writes the cells back where they were picked from. No two points may
mean the same place, because the result would depend on their order.
-/

namespace RowMajor

namespace Grid

variable {α : Type}

/-- The items of the cell below a point, component by component from the given axis on. -/
def descend (filler : Filler α) (whole : Shape) : Nat → Shape → List Int → List α →
    Except Error (List α)
  | axis, d :: s, i :: point, items =>
    match resolveIndex i d with
    | some p =>
      let start := Int.ofNat p * Shape.size s
      if Shape.size s < 0 then
        .error (.buffer (.slice start (some (start + Shape.size s)) items.length))
      else
        descend filler whole (axis + 1) s point
          ((items.drop (p * Shape.volume s)).take (Shape.volume s))
    | none =>
      match filler with
      | .ok x => descend filler whole (axis + 1) s point (List.replicate (Shape.volume s) x)
      | .error why => .error (.outside i d axis whole why.note)
  | _, _, _, items => .ok items

def checkWidth (point : List Int) (a : Grid α) : Except Error Unit :=
  if a.rank < point.length then .error (.shape (.indexLength .pick a.rank point.length))
  else .ok ()

/-- The cell below a point. -/
def pickPoint (kind : Kind) (filler : Filler α) (a : Grid α) (point : List Int) :
    Except Error (Grid α) := do
  a.checkWidth point
  fit kind ⟨a.shape.drop point.length, ← descend filler a.shape 0 a.shape point a.items⟩

/-- The shape in which cells below points of the given width are arranged. -/
def pickedShape (batch : Shape) (width : Int) (a : Grid α) : Shape :=
  batch ++ a.shape.back width

/-- What is picked for so many rows of an index array. Rows without indices are all alike, and one
of them is picked for all. -/
def pickRows (pickRow : List Int → Except Error (Grid α)) (rowShape : Shape) (count : Nat)
    (index : List Int) : Except Error (List (Grid α)) :=
  if rowShape.size = 0 then do .ok (List.replicate count (← pickRow index))
  else (pieces rowShape.volume count index).mapM pickRow

/-- The cells below the points of an index array, picked row by row of that array. An axis of
negative length has no rows, and hardly ever a shape that fits is left then. -/
def pickNested (kind : Kind) (filler : Filler α) (a : Grid α) : Shape → List Int →
    Except Error (Grid α)
  | d :: e :: s, index => do
    let below : Shape := e :: s
    let cells ← pickRows (pickNested kind filler a below) below d.toNat index
    fit kind ⟨pickedShape (d :: below).dropLast (below.getLastD 1) a, cells.flatMap (·.items)⟩
  | _, index => pickPoint kind filler a index

/-- The cells below all points of an index array. -/
def pick (kind : Kind) (filler : Filler α) (index : Grid Int) (a : Grid α) :
    Except Error (Grid α) :=
  pickNested kind filler a index.shape index.items

/-- The coordinates that a point means, from the given axis on. -/
def resolvePoint (whole : Shape) : Nat → Shape → List Int → Except Error (List Nat)
  | axis, d :: s, i :: point =>
    match resolveIndex i d with
    | some p => do .ok (p :: (← resolvePoint whole (axis + 1) s point))
    | none => .error (.outside i d axis whole "")
  | _, _, _ => .ok []

def placeOf (a : Grid α) (point : List Int) : Except Error (List Nat) := do
  a.checkWidth point
  resolvePoint a.shape 0 a.shape point

/-- The coordinates that the points mean, none of them among those seen before it. -/
def distinctPlaces (a : Grid α) : List (List Nat) → List (List Int) →
    Except Error (List (List Nat))
  | _, [] => .ok []
  | seen, point :: points => do
    let place ← a.placeOf point
    if place ∈ seen then .error (.inverse (.duplicates .pick))
    else .ok (place :: (← a.distinctPlaces (place :: seen) points))

/-- The cells that a pick would give must still have their shape. -/
def checkPicked (p : Points) (picked into : Grid α) : Except Error Unit :=
  let expected := into.pickedShape p.batch p.width
  if picked.shape = expected then .ok ()
  else .error (.inverse (.gatheredShape .pick expected picked.shape))

/-- Where the cells of several points go. Points without components all mean the whole
array, so there may be only one of them along every axis of their arrangement. An
arrangement with an axis that is not positive has no points. -/
def placesOf (p : Points) (picked into : Grid α) : Except Error (List (List Nat)) := do
  if p.width = 0 ∧ p.batch.any (1 < ·) then .error (.inverse (.duplicates .pick))
  let places ← if p.width = 0 then .ok [[]] else into.distinctPlaces [] p.toList
  checkPicked p picked into
  .ok (if p.batch.any (· ≤ 0) then [] else places)

/-- Where the cell of a single point goes. -/
def placeOfSingle (p : Points) (picked into : Grid α) : Except Error (List (List Nat)) := do
  let point := p.components
  into.checkWidth point
  checkPicked p picked into
  .ok [← resolvePoint into.shape 0 into.shape point]

/-- Write picked cells back to the points of an index array. -/
def unpick (index : Grid Int) (picked into : Grid α) : Except Error (Grid α) := do
  let p := index.toPoints
  let places ← if 1 < index.rank then placesOf p picked into else placeOfSingle p picked into
  let cellSize := Shape.volume (into.shape.back p.width)
  .ok (into.writeCells places (pieces cellSize places.length picked.items))

end Grid

namespace Value

def pick (fill : Fill) (index : Grid Int) (v : Value) : Except Error Value := do
  let v ← v.promoteFor fill
  .ok (.ofGrid v.form (← Grid.pick v.kind (fill.filler v.form) index v.grid))

def unpick (index : Grid Int) (picked into : Value) : Except Error Value := do
  let both ← unify .unpick picked into
  .ok (.ofGrid both.form (← Grid.unpick index both.first both.second))

end Value

/-- The cells of `value` at the points of `index`. -/
def pick (index value : Operand) (fill : Fill) : Except Error Value := do
  let index ← index.asIntegerGrid .indexTable
  (← value.toValue).pick fill index

/-- Write `picked` back into `into` at the points of `index`. -/
def unpick (picked index into : Operand) : Except Error Value := do
  let index ← index.asIntegerGrid .indexTable
  let picked ← picked.toValue
  Value.unpick index picked (← into.toValue)

end RowMajor
