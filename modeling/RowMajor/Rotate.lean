import RowMajor.Frames
import RowMajor.Grid.Stacking
import RowMajor.Operand.Integers

/-!
# Rotation

An array is rotated to the left along its leading axes, by one offset per axis. Every
offset counts modulo the length of its axis. With a fill value the cells that come
round the end are overwritten, and the rotation becomes a shift.

A section of a list is rotated in the same way. If the lengths of its axes and its
beginning are natural numbers, it is taken out of the list, rotated and put back.
Otherwise the bounds of its parts are read as bounds in the list, which count from the
end when they are negative, and the rotation is made up of reversals between them. A
section is overwritten between such bounds also when the list ends before it does.

`rotateDepth` rotates every row of an array by offsets of its own: the offsets form an
array as well, and the two are aligned along their frames.
-/

namespace RowMajor

variable {α : Type}

/-- Rotate items of the given shape to the left, one offset per leading axis. -/
def rotateItems : List Int → Shape → List α → List α
  | offset :: offsets, d :: s, items =>
    let size := Shape.volume s
    let turn := (offset % d).toNat * size
    let turned := items.drop turn ++ items.take turn
    if offsets.isEmpty || s.isEmpty || size == 0 then turned
    else (pieces size d.toNat turned).flatMap (rotateItems offsets s)
  | _, _, items => items

/-- Overwrite the cells that a rotation by the same offsets carries round an end. -/
def overwriteWrapped (fill : α) : List Int → Shape → List α → List α
  | offset :: offsets, d :: s, items =>
    let size := Shape.volume s
    let span := min offset.natAbs d.toNat * size
    let padding := List.replicate span fill
    let shifted :=
      if 0 < offset then items.take (d.toNat * size - span) ++ padding
      else padding ++ items.drop span
    if offsets.isEmpty || s.isEmpty || size == 0 then shifted
    else (pieces size d.toNat shifted).flatMap (overwriteWrapped fill offsets s)
  | _, _, items => items

/-- The bounds at which the rows of a section begin. -/
def rowBounds (start d size : Int) : List Int :=
  if size = 0 then [] else (List.range d.toNat).map fun i => start + Int.ofNat i * size

/-- Rotate what lies between bounds of a list, for axes of any length. -/
def rotateBetween : List Int → Shape → Int → List α → List α
  | offset :: offsets, d :: s, start, items =>
    if d = 0 then items
    else
      let size := Shape.size s
      let stop := start + d * size
      let middle := start + offset.fmod d * size
      let turned := changeBetween start stop .reverse
        (changeBetween middle stop .reverse (changeBetween start middle .reverse items))
      if offsets.isEmpty || s.isEmpty then turned
      else
        (rowBounds start d size).foldl (fun items row => rotateBetween offsets s row items) turned
  | _, _, _, items => items

/-- Overwrite what a rotation between bounds carries round an end. -/
def overwriteBetween (fill : α) : List Int → Shape → Int → List α → List α
  | offset :: offsets, d :: s, start, items =>
    if d = 0 then items
    else
      let size := Shape.size s
      let stop := start + d * size
      let span := min (Int.ofNat offset.natAbs * size) (stop - start)
      let padding (_ : List α) : List α := List.replicate span.toNat fill
      let shifted :=
        if offset = 0 then items
        else if 0 < offset then changeBetween (stop - span) stop padding items
        else changeBetween start (start + span) padding items
      if offsets.isEmpty || s.isEmpty then shifted
      else
        (rowBounds start d size).foldl
          (fun items row => overwriteBetween fill offsets s row items) shifted
  | _, _, _, items => items

/-- Rotate the items of the given shape that begin at `start`. -/
def rotateSection (offsets : List Int) (s : Shape) (start : Int) (items : List α) : List α :=
  if s.Natural ∧ 0 ≤ start then
    changeSection start.toNat s.volume (rotateItems offsets s) items
  else rotateBetween offsets s start items

/-- Overwrite what a rotation of the items of the given shape that begin at `start` carries
round an end. Fill elements that lie beyond the end of the list are appended to it, so a
section that is not all there grows, and its rows are found by their bounds. -/
def overwriteSection (fill : α) (offsets : List Int) (s : Shape) (start : Int)
    (items : List α) : List α :=
  if s.Natural ∧ 0 ≤ start ∧ start + s.size ≤ Int.ofNat items.length then
    changeSection start.toNat s.volume (overwriteWrapped fill offsets s) items
  else overwriteBetween fill offsets s start items

namespace Grid

/-- Rotate along the leading axes, or shift if there is a fill element. -/
def rotate (filler : Filler α) (offsets : List Int) (a : Grid α) : Except Error (Grid α) :=
  if a.rank < offsets.length then .error (.shape (.indexLength .rotate a.rank offsets.length))
  else
    let rotated := rotateSection offsets a.shape 0 a.items
    match filler with
    | .ok x => .ok ⟨a.shape, overwriteSection x offsets a.shape 0 rotated⟩
    | .error _ => .ok ⟨a.shape, rotated⟩

/-- Rotate every row at depth `depth` by the row of offsets that is aligned with it. The kind
is the one of the grid. -/
def rotateRows (kind : Kind) (depth : Int) (offsets : Grid Int) (offsetDepth : Int)
    (a : Grid α) : Except Error (Grid α) :=
  match a.align (kind, .number) depth offsets offsetDepth with
  | .error failure => .error failure.error
  | .ok aligned =>
    if 1 < aligned.otherShape.length ∧ ¬ aligned.pairs.isEmpty then
      .error (.shape (.offsetRank aligned.otherShape.length))
    else .ok (aligned.mapRows fun row offsets => rotateSection offsets aligned.rowShape 0 row)

end Grid

namespace Value

def rotate (fill : Fill) (offsets : List Int) (v : Value) : Except Error Value := do
  let v ← v.promoteFor fill
  .ok (.ofGrid v.form (← v.grid.rotate (fill.filler v.form) offsets))

/-- Rotate row by row. A fill value fills nothing here; it only promotes bytes. -/
def rotateRows (fill : Fill) (depth : Int) (offsets : Grid Int) (offsetDepth : Int) (v : Value) :
    Except Error Value := do
  let v ← v.promoteFor fill
  .ok (.ofGrid v.form (← Grid.rotateRows v.kind depth offsets offsetDepth v.grid))

end Value

def rotate (by_ value : Operand) (fill : Fill) : Except Error Value := do
  let offsets ← by_.asIntegers .offsets
  (← value.toValue).rotate fill offsets

/-- Rotate every row of `value` at its depth by the matching row of offsets at theirs. -/
def rotateDepth (by_ value : Operand) (offsetDepth depth : Int) (fill : Fill) :
    Except Error Value := do
  let offsets ← by_.asIntegerGrid .offsetTable
  (← value.toValue).rotateRows fill depth offsets offsetDepth

end RowMajor
