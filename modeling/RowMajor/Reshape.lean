import RowMajor.Grid.Stacking
import RowMajor.Operand.Integers

/-!
# Reshaping and reranking

Reshaping lays the elements of an array out under new dimensions, one of which may be
left to be derived from the others. Elements that are missing come from the fill value
or, without one, from starting over at the first element; elements that are left over
are cut off. A single natural number instead of a list of dimensions asks for that
many copies of the whole array.

Reranking merges leading axes, or adds leading axes of length one, until a given number
of axes remain below the leading one.
-/

namespace RowMajor

namespace Shape

/-- The length of the derived axis. With a fill the last row may be incomplete and counts. -/
def derivedLength (total others : Int) (roundUp : Bool) : Int :=
  if roundUp then (total + others - 1) / others else total / others

/-- The place of the derived axis among `count` dimensions. -/
def derivedPlace (position count : Nat) : Place :=
  if position = 0 then .first
  else if position + 1 = count then .last
  else .middle

/-- The shape that dimensions ask for, where at most one may be negative and is derived so
that the elements of the old shape fit. -/
def derive (old : Shape) (dims : List Int) (roundUp : Bool) : Except Error Shape :=
  match dims.countP (· < 0) with
  | 0 => .ok dims
  | 1 =>
    let position := dims.findIdx (· < 0)
    let others := size (dims.filter (0 ≤ ·))
    if others = 0 then .error (.shape (.zeroBesideDerived (derivedPlace position dims.length)))
    else
      let derived := derivedLength old.size others roundUp
      .ok (dims.map fun d => if d < 0 then derived else d)
  | count => .error (.shape (.severalDerived count))

/-- The shape after reranking: `rank` axes remain below a single leading one, or, if the
rank is negative, that many leading axes are merged. -/
def rerank (s : Shape) (rank : Int) : Except Error Shape :=
  let merged (depth : Nat) : Shape := size (s.take depth) :: s.drop depth
  if 0 ≤ rank then
    if s.length ≤ rank.toNat then .ok (List.replicate (rank.toNat - s.length + 1) 1 ++ s)
    else .ok (merged (s.length - rank.toNat))
  else if s.length < rank.natAbs then .error (.shape (.rerank rank.natAbs s.length))
  else .ok (merged rank.natAbs)

/-- The shape that undoes a reranking of the old shape. -/
def unrerank (s old : Shape) (rank : Int) : Shape :=
  if 0 ≤ rank then
    old.take (old.length - rank.toNat) ++ s.drop (max (rank.toNat + 1 - old.length) 1)
  else old.take rank.natAbs ++ s.drop 1

end Shape

namespace Grid

variable {α : Type}

/-- Copies of the whole grid as the rows of a new one. -/
def copies (count : Nat) (a : Grid α) : Grid α :=
  ⟨Int.ofNat count :: a.shape, multiplied count a.items⟩

/-- The first `count` items of an endless repetition of the list. -/
def cycle (count : Nat) (items : List α) : List α :=
  ((List.replicate (count / items.length + 1) items).flatten).take count

/-- The elements laid out under new dimensions. -/
def reshape (filler : Filler α) (dims : List Int) (a : Grid α) : Except Error (Grid α) := do
  let shape ← a.shape.derive dims filler.isOk
  let count := shape.volume
  if count ≤ a.items.length then .ok ⟨shape, a.items.take count⟩
  else
    match filler with
    | .ok x => .ok ⟨shape, a.items ++ List.replicate (count - a.items.length) x⟩
    | .error why =>
      if a.items.isEmpty then .error (.shape (.nothingToRepeat shape why))
      else .ok ⟨shape, cycle count a.items⟩

end Grid

namespace Value

def copies (count : Nat) (v : Value) : Value :=
  v.map (·.copies count)

/-- The elements laid out under new dimensions, with bytes promoted for the fill. -/
def reshape (fill : Fill) (dims : List Int) (v : Value) : Except Error Value := do
  let v ← v.promoteFor fill
  .ok (.ofGrid v.form (← v.grid.reshape (fill.filler v.form) dims))

/-- The elements under an old shape, which must account for all of them. -/
def unreshape (old : Shape) (v : Value) : Except Error Value :=
  if old.size = Int.ofNat v.elementCount then .ok (v.withShape old)
  else .error (.inverse (.unreshape old v.shape))

def rerank (rank : Int) (v : Value) : Except Error Value := do
  .ok (v.withShape (← v.shape.rerank rank))

def unrerankGrid (rank : Int) (old : Shape) (v : Value) : Except Error Value :=
  let target := v.shape.unrerank old rank
  if target.size = Int.ofNat v.elementCount then .ok (v.withShape target)
  else .error (.inverse (.unrerank v.shape target))

/-- Undo a reranking from the old shape. A value without axes stays as it is, but a box
without axes has the reranking of its content undone. -/
def unrerank (rank : Int) (old : Shape) : Value → Except Error Value
  | .box ⟨[], [content]⟩ => do .ok (.box (.scalar (← content.unrerank rank old)))
  | .mixed .box ⟨[], [.box content]⟩ => do .ok (.box (.scalar (← content.unrerank rank old)))
  | v => if v.rank = 0 then .ok v else v.unrerankGrid rank old

end Value

/-- Reshape to a list of dimensions, or repeat the value as often as a natural number says. -/
def reshape (shape value : Operand) (fill : Fill) : Except Error Value := do
  let v ← value.toValue
  match ← shape.asNatural? with
  | some count => .ok (v.copies count)
  | none => v.reshape fill (← shape.asIntegers .newShape)

/-- Undo a reshape to dimensions; repetition has no undo. -/
def unreshape (value oldShape : Operand) : Except Error Value := do
  let v ← value.toValue
  match ← oldShape.asNatural? with
  | some _ => .error (.inverse .scalarReshape)
  | none => v.unreshape (.ofNats (← oldShape.asNaturals .oldShape))

def rerank (rank value : Operand) : Except Error Value := do
  let v ← value.toValue
  v.rerank (← rank.asInteger .rank)

def unrerank (value rank oldShape : Operand) : Except Error Value := do
  let v ← value.toValue
  let rank ← rank.asInteger .rank
  v.unrerank rank (.ofNats (← oldShape.asNaturals .rankedShape))

end RowMajor
