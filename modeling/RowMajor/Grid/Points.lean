import RowMajor.Grid.Basic

/-!
# Points

An array of indices is read as points, one for each row along its last axis, and a
single index counts as one point with one component. The cells of a grid that begin at
given coordinates can be written over.
-/

namespace RowMajor

/-- Points in an index space: how they are arranged, how many components each has, and the
components of all of them one after the other. -/
structure Points where
  batch : Shape
  width : Int
  components : List Int

/-- The points themselves. -/
def Points.toList (p : Points) : List (List Int) :=
  pieces p.width.toNat p.batch.volume p.components

namespace Grid

variable {α : Type}

/-- The points that an index array describes. -/
def toPoints (index : Grid Int) : Points :=
  ⟨index.shape.dropLast, index.shape.getLastD 1, index.items⟩

/-- Write cells over those that begin at the given coordinates. -/
def writeCells (places : List (List Nat)) (cells : List (List α)) (a : Grid α) : Grid α :=
  ⟨a.shape, (places.zip cells).foldl
    (fun items (place, cell) => splice (a.shape.offset place) cell items) a.items⟩

end Grid

end RowMajor
