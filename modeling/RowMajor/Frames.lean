import RowMajor.Grid.Fit
import RowMajor.Index

/-!
# Alignment of frames

The leading axes of an array down to some depth are its frame, and each cell below the
frame is one row. A negative depth is counted from the last axis. Two arrays are aligned
row by row when their frames agree as far as the shorter one goes; every row of the array
with the smaller depth then serves all the rows of the other that lie below it. If the
frames disagree, leading axes of length one are left out of account, and the frames that
remain have to agree.
-/

namespace RowMajor

namespace Shape

/-- How many leading axes of length one there are, up to a depth. -/
def leadingUnits (depth : Int) (s : Shape) : Nat :=
  min depth.toNat (s.takeWhile (· == 1)).length

/-- Whether two frames are equal as far as both go. -/
def agrees (s t : Shape) : Bool :=
  (s.zip t).all fun (d, e) => d == e

end Shape

variable {α β : Type}

/-- The rows of two grids, paired. -/
structure Aligned (α β : Type) where
  rowShape : Shape
  otherShape : Shape
  pairs : List (List α × List β)
  /-- The elements of the first grid that belong to no row. -/
  unpaired : List α
  /-- The shape of the first grid once its rows are put back together. -/
  shape : Shape

/-- The first grid again, after every row has been changed with the help of its partner. -/
def Aligned.mapRows (f : List α → List β → List α) (x : Aligned α β) : Grid α :=
  ⟨x.shape, (x.pairs.flatMap fun (row, other) => f row other) ++ x.unpaired⟩

/-- Why two grids cannot be aligned, and the first of them without the axes that were left out
of account. -/
structure Misaligned (α : Type) where
  error : Error
  left : Grid α

namespace Grid

/-- Repeat every cell at a depth over additional axes at the end of the frame. -/
def spread (depth : Int) (extra : Shape) (a : Grid α) : Grid α :=
  let size := Shape.volume (a.shape.back depth)
  ⟨a.shape.front depth ++ extra ++ a.shape.back depth,
    (pieces size (a.items.length / size) a.items).flatMap (repeated extra.volume)⟩

/-- Repeat the cells of the grid with the smaller depth over the axes that its frame lacks. -/
def spreadTo (kind : Kind) (otherFrame : Shape) (depth otherDepth : Int) (a : Grid α) :
    Except Error (Grid α) :=
  if depth < otherDepth then (a.spread depth (otherFrame.back depth)).fit kind else .ok a

/-- Pair the rows of two grids at one depth, each row of the first with the part of the second
at the same place. -/
def pairRows (whole : Shape) (depth : Int) (a : Grid α) (b : Grid β) : Aligned α β :=
  let rowShape : Shape := a.shape.back depth
  let otherShape : Shape := b.shape.back depth
  let count := a.items.length / rowShape.volume
  { rowShape
    otherShape
    pairs := (pieces rowShape.volume count a.items).zipIdx.map fun (row, i) =>
      let start := Int.ofNat i * otherShape.size
      (row, between start (start + otherShape.size) b.items)
    unpaired := a.items.drop (count * rowShape.volume)
    shape := if Int.ofNat a.items.length = whole.size then whole else a.shape }

/-- Align grids whose frames agree. Rows that are put together again have the shape `whole` if
the elements of the first grid just fill it. -/
def alignAgreeing (kinds : Kind × Kind) (whole : Shape) (a : Grid α) (depth : Int) (b : Grid β)
    (otherDepth : Int) : Except (Misaligned α) (Aligned α β) :=
  let frame : Shape := a.shape.front depth
  let otherFrame : Shape := b.shape.front otherDepth
  match a.spreadTo kinds.1 otherFrame depth otherDepth with
  | .error e => .error ⟨e, a.spread depth (otherFrame.back depth)⟩
  | .ok first =>
    match b.spreadTo kinds.2 frame otherDepth depth with
    | .error e => .error ⟨e, first⟩
    | .ok second => .ok (pairRows whole (max depth otherDepth) first second)

/-- Align two grids along frames of the given depths, cut to the ranks. The first grid keeps
its shape unless repeating its rows changed the number of its elements. The kinds are named
if a shape cannot be filled, which takes a negative length. -/
def align (kinds : Kind × Kind) (a : Grid α) (depth : Int) (b : Grid β) (otherDepth : Int) :
    Except (Misaligned α) (Aligned α β) :=
  let depth := min depth (Int.ofNat a.rank)
  let otherDepth := min otherDepth (Int.ofNat b.rank)
  if Shape.agrees (a.shape.front depth) (b.shape.front otherDepth) then
    alignAgreeing kinds a.shape a depth b otherDepth
  else
    let units := a.shape.leadingUnits depth
    let otherUnits := b.shape.leadingUnits otherDepth
    let first := a.withShape (a.shape.drop units)
    let second := b.withShape (b.shape.drop otherUnits)
    let depth := depth - Int.ofNat units
    let otherDepth := otherDepth - Int.ofNat otherUnits
    let frame := first.shape.front depth
    let otherFrame := second.shape.front otherDepth
    if Shape.agrees frame otherFrame then
      alignAgreeing kinds a.shape first depth second otherDepth
    else .error ⟨.shape (.frames first.shape second.shape frame otherFrame), first⟩

end Grid

end RowMajor
