import RowMajor.Grid.Stacking
import RowMajor.Operand.Integers

/-!
# Keeping rows

A list of counts, one for each row of an array, says how often the row is to be kept.
Counts that are missing at the end can be supplied by a fill value. A single count
repeats the array as a whole.

Keeping can be undone if every count is zero or one: the rows that were kept, edited or
not, go back to where they came from and the others stay as they are.
-/

namespace RowMajor

/-- The counts for all rows of an array of the given shape. -/
def fillCounts (fill : Fill) (shape : Shape) (rows : Int) (counts : List Nat) :
    Except Error (List Nat) :=
  if Int.ofNat counts.length = rows then .ok counts
  else if Int.ofNat counts.length < rows then
    match fill.filler (.uniform .number) with
    | .error why => .error (.shape (.tooFewCounts shape counts.length why))
    | .ok (x : Binary64) =>
      match x.toNat? with
      | some n => .ok (counts ++ List.replicate (rows.toNat - counts.length) n)
      | none => .error (.kind (.keepFill x))
  else
    match fill.filler (.uniform .number) with
    | .error why => .error (.shape (.tooManyCounts shape counts.length (some why)))
    | .ok _ => .error (.shape (.tooManyCounts shape counts.length none))

namespace Grid

variable {α : Type}

/-- The whole grid repeated along its leading axis. Of a grid without axes there is only its
element to repeat, and a grid with axes is extended by what it already holds. -/
def repeatRows (count : Nat) (a : Grid α) : Grid α :=
  if a.rank = 0 then ⟨[Int.ofNat count], repeated count (a.items.take 1)⟩
  else
    match count with
    | 0 => ⟨0 :: a.rowShape, []⟩
    | 1 => a
    | count => ⟨a.rowCount * Int.ofNat count :: a.rowShape, multiplied count a.items⟩

/-- The elements of the rows that a mask does not mark with zero. -/
def maskedItems (mask : List Nat) (a : Grid α) : List α :=
  (mask.zip a.rows).flatMap fun (n, row) => if n = 0 then [] else row.items

/-- The elements of the rows, each row as often as its count says. -/
def countedItems (counts : List Nat) (a : Grid α) : List α :=
  (counts.zip a.rows).flatMap fun (n, row) => repeated n row.items

/-- Every row as often as its count says. Of a grid without axes there is only its element, and
counts of zero and one are a mask. -/
def keepRows (counts : List Nat) (a : Grid α) : Grid α :=
  if a.rank = 0 then
    ⟨[Int.ofNat (counts.headD 0)], repeated (counts.headD 0) (a.items.take 1)⟩
  else
    ⟨Int.ofNat (counts.foldr (· + ·) 0) :: a.rowShape,
      if counts.all (· ≤ 1) then a.maskedItems counts else a.countedItems counts⟩

def keep (fill : Fill) (counts : List Nat) (a : Grid α) : Except Error (Grid α) := do
  .ok (a.keepRows (← fillCounts fill a.shape a.rowCount counts))

/-- Put kept rows back over the rows that were counted, one after the other. -/
def mergeKept : List Nat → List (Grid α) → List (Grid α) → Except Error (List (Grid α))
  | n :: counts, row :: rows, kept =>
    if n = 0 then do .ok (row :: (← mergeKept counts rows kept))
    else
      match kept with
      | [] => .error (.inverse .fewerKeptRows)
      | new :: kept =>
        if new.shape = row.shape then do .ok (new :: (← mergeKept counts rows kept))
        else .error (.inverse (.keptRowShape row.shape new.shape))
  | _, _, [] => .ok []
  | _, _, _ :: _ => .error (.inverse .moreKeptRows)

/-- The rows that were kept, no more than are needed to tell whether there are too many. A grid
without axes has no rows to give back. -/
def keptRows (counts : List Nat) (kept : Grid α) : List (Grid α) :=
  if kept.rank = 0 then [] else kept.rowsFrom 0 (min kept.rowCount.toNat (counts.length + 1))

/-- Undo a keep. -/
def unkeep (fill : Fill) (counts : List Nat) (kept into : Grid α) : Except Error (Grid α) :=
  if counts.any (1 < ·) then .error (.inverse .nonBooleanCounts)
  else if into.rank = 0 then .error (.inverse .keepIntoScalar)
  else do
    let counts ← fillCounts fill into.shape into.rowCount counts
    let rows ← mergeKept counts into.rows (kept.keptRows counts)
    ofRows into.rowShape rows

end Grid

namespace Value

def repeatRows (count : Nat) (v : Value) : Value :=
  v.map (·.repeatRows count)

def keep (fill : Fill) (counts : List Nat) (v : Value) : Except Error Value := do
  .ok (.ofGrid v.form (← v.grid.keep fill counts))

def unkeep (fill : Fill) (counts : List Nat) (kept into : Value) : Except Error Value := do
  let both ← unify .unkeep kept into
  .ok (.ofGrid both.form (← both.first.unkeep fill counts both.second))

end Value

/-- Keep rows by a list of counts, or repeat the whole value by a single count. -/
def keep (counts value : Operand) (fill : Fill) : Except Error Value := do
  let amount ← counts.toValue
  let v ← value.toValue
  let list ← amount.naturalList .counts
  if amount.rank = 0 then .ok (v.repeatRows (list.headD 0)) else v.keep fill list

def unkeep (kept counts into : Operand) (fill : Fill) : Except Error Value := do
  let amount ← counts.toValue
  let list ← amount.naturalList .counts
  if amount.rank = 0 then .error (.inverse .scalarCounts)
  else
    let kept ← kept.toValue
    let into ← into.toValue
    Value.unkeep fill list kept into

end RowMajor
