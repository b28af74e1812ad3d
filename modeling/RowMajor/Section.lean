import RowMajor.Grid.Stacking
import RowMajor.Operand.Integers

/-!
# Sections

A section consists of the first or the last rows of an array, cut along some leading
axes: a count that is not negative takes rows from the front, a negative one from the
back. Taking past the end of an axis pads it with the fill element on that side.
Dropping leaves the complement of what taking would give.

Undoing either puts a section, edited or not, back over the part of the array that it
was cut from.
-/

namespace RowMajor

namespace Shape

/-- The shape of a section that is taken by the given counts. -/
def taken : List Int → Shape → Shape
  | n :: counts, _ :: s => Int.ofNat n.natAbs :: taken counts s
  | _, s => s

/-- The shape of what remains when the given counts are dropped. -/
def dropped : List Int → Shape → Shape
  | n :: counts, d :: s => max (d - Int.ofNat n.natAbs) 0 :: dropped counts s
  | _, s => s

/-- Whether counts take every axis as it is, from whichever side. -/
def isTakenWhole (counts : List Int) (s : Shape) : Bool :=
  (counts.zip s).all fun (n, d) => decide (Int.ofNat n.natAbs = d)

end Shape

/-- The counts that take what dropping the given counts from the shape leaves. -/
def remainingCounts (counts : List Int) (s : Shape) : List Int :=
  counts.zipWith (fun n d => if 0 ≤ n then min (n - d) 0 else max (n + d) 0) s

namespace Grid

variable {α : Type}

/-- The rows that a count takes, as far as there are any. -/
def takeRows (n : Int) (a : Grid α) : List (Grid α) :=
  let count := a.rowCount.toNat
  if 0 ≤ n then a.rowsFrom 0 (min n.natAbs count)
  else a.rowsFrom (count - n.natAbs) (min n.natAbs count)

/-- The rows that dropping a count leaves. -/
def dropRows (n : Int) (a : Grid α) : List (Grid α) :=
  let count := a.rowCount.toNat
  let kept := count - n.natAbs
  if 0 ≤ n then a.rowsFrom (count - kept) kept else a.rowsFrom 0 kept

/-- Items with padding on the side on which a count runs over the end. -/
def padItems (n : Int) (padding items : List α) : List α :=
  if 0 ≤ n then items ++ padding else padding ++ items

/-- The section that a count takes, where so many of its rows are missing and are filled. -/
def padRows (kind : Kind) (filler : Filler α) (n : Int) (rowShape : Shape) (missing : Int)
    (items : List α) (a : Grid α) : Except Error (Grid α) :=
  match filler with
  | .ok x =>
    let padding := List.replicate (missing * rowShape.size).toNat x
    fit kind ⟨Int.ofNat n.natAbs :: rowShape, padItems n padding items⟩
  | .error why => .error (.outside n a.rowCount 0 a.shape why.note)

/-- The section along the leading axis alone. -/
def takeLeading (kind : Kind) (filler : Filler α) (n : Int) (a : Grid α) :
    Except Error (Grid α) :=
  let count := Int.ofNat n.natAbs
  if count ≤ a.rowCount then
    .ok ⟨count :: a.rowShape,
      if 0 ≤ n then a.items.take (n.natAbs * a.rowSize)
      else a.items.drop ((a.rowCount - count).toNat * a.rowSize)⟩
  else a.padRows kind filler n a.rowShape (count - a.rowCount) a.items

/-- The section along as many leading axes as there are counts. -/
def take (kind : Kind) (filler : Filler α) : List Int → Grid α → Except Error (Grid α)
  | [], a => .ok a
  | n :: counts, a =>
    if Shape.isTakenWhole counts a.rowShape then a.takeLeading kind filler n
    else do
      let rowShape := Shape.taken counts a.rowShape
      let rows ← (a.takeRows n).mapM (take kind filler counts)
      let items := rows.flatMap (·.items)
      if n.natAbs ≤ rows.length then .ok ⟨Int.ofNat n.natAbs :: rowShape, items⟩
      else
        a.padRows kind filler n rowShape (Int.ofNat n.natAbs - Int.ofNat rows.length) items

/-- What dropping along the leading axis alone leaves. -/
def dropLeading (n : Int) (a : Grid α) : Grid α :=
  let kept := max (a.rowCount - Int.ofNat n.natAbs) 0
  ⟨kept :: a.rowShape,
    if 0 ≤ n then a.items.drop ((a.rowCount - kept) * Shape.size a.rowShape).toNat
    else a.items.take (kept.toNat * a.rowSize)⟩

/-- What dropping leaves along as many leading axes as there are counts. -/
def drop : List Int → Grid α → Grid α
  | [], a => a
  | [n], a => a.dropLeading n
  | n :: counts, a =>
    ⟨Shape.dropped (n :: counts) a.shape, ((a.dropRows n).map (drop counts)).flatMap (·.items)⟩

/-- There may be no more counts than axes. -/
def checkCounts (cause : Nat → Nat → ShapeError) (counts : List Int) (a : Grid α) :
    Except Error Unit :=
  if a.rank < counts.length then .error (.shape (cause a.rank counts.length)) else .ok ()

/-- Put a section that is known to have the right shape back. Along the last of the axes it
is joined to the rows that it does not cover; along the others every row of the section
goes back into the row it came from. -/
def replaceSection (cut : Section) : List Int → Grid α → Grid α → Except Error (Grid α)
  | [], part, _ => .ok part
  | [n], part, into =>
    let rest := into.dropLeading n
    if 0 ≤ n then part.join rest else rest.join part
  | n :: counts, part, into => do
    let count := n.natAbs
    let rows := into.rows
    if rows.length < count then .error (.inverse (.sectionRows cut count rows.length))
    else
      let start := if 0 ≤ n then 0 else rows.length - count
      let covered := (rows.drop start).take count
      let renewed ← (part.rows.zip covered).mapM fun (new, old) =>
        replaceSection cut counts new old
      ofRows into.rowShape (rows.take start ++ renewed ++ rows.drop (start + count))

/-- Put a section back over the part of a grid that the counts take. -/
def undoSection (cut : Section) (counts : List Int) (part into : Grid α) :
    Except Error (Grid α) :=
  let expected := into.shape.taken counts
  if part.shape ≠ expected then .error (.inverse (.sectionShape cut expected part.shape))
  else replaceSection cut counts part into

def untake (counts : List Int) (taken into : Grid α) : Except Error (Grid α) := do
  into.checkCounts (.undoIndexLength .take) counts
  undoSection .take counts taken into

def undrop (counts : List Int) (dropped into : Grid α) : Except Error (Grid α) := do
  into.checkCounts (.undoIndexLength .drop) counts
  undoSection .drop (remainingCounts counts into.shape) dropped into

end Grid

namespace Value

def take (fill : Fill) (counts : List Int) (v : Value) : Except Error Value := do
  let v ← v.promoteFor fill
  v.grid.checkCounts (.indexLength .take) counts
  .ok (.ofGrid v.form (← Grid.take v.kind (fill.filler v.form) counts v.grid))

def drop (counts : List Int) (v : Value) : Except Error Value := do
  v.grid.checkCounts (.indexLength .drop) counts
  .ok (.ofGrid v.form (v.grid.drop counts))

def untake (counts : List Int) (taken into : Value) : Except Error Value := do
  let both ← unify .untake taken into
  .ok (.ofGrid both.form (← both.first.untake counts both.second))

def undrop (counts : List Int) (dropped into : Value) : Except Error Value := do
  let both ← unify .undrop dropped into
  .ok (.ofGrid both.form (← both.first.undrop counts both.second))

end Value

/-- A section of `value`, with as many rows along each axis as the counts say. -/
def take (counts value : Operand) (fill : Fill) : Except Error Value := do
  let v ← value.toValue
  if v.rank = 0 then .error (.shape (.scalarSection .take))
  else v.take fill (← counts.asIntegers .indexList)

/-- What is left of `value` when as many rows as the counts say are dropped. -/
def drop (counts value : Operand) : Except Error Value := do
  let v ← value.toValue
  if v.rank = 0 then .error (.shape (.scalarSection .drop))
  else v.drop (← counts.asIntegers .indexList)

/-- Put a section back over the part of `into` that it was taken from. -/
def untake (taken counts into : Operand) : Except Error Value := do
  let counts ← counts.asIntegers .indexList
  let taken ← taken.toValue
  Value.untake counts taken (← into.toValue)

/-- Put what a drop left back under the rows of `into` that were dropped. -/
def undrop (dropped counts into : Operand) : Except Error Value := do
  let counts ← counts.asIntegers .indexList
  let dropped ← dropped.toValue
  Value.undrop counts dropped (← into.toValue)

end RowMajor
