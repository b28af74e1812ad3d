import RowMajor.Grid.Stacking
import RowMajor.Search.Codes
import RowMajor.Search.Keys
import RowMajor.Value.Key

/-!
# Searching for rows

Three questions are asked about the rows of one array among the rows of another:
whether each occurs, where it occurs first, and where it occurs next if no position
may answer twice. If the first array has more axes than needed, the question is asked
for every one of its cells with as many axes as the searched array. If it has fewer, it
is itself a row to be looked for, in every cell of the searched array that has one axis
more.

Rows are compared by integer codes where every element has one, and by keys otherwise.
The options say when codes may be used; the answers do not depend on it.
-/

namespace RowMajor

namespace Search

/-- When rows may be compared by codes: if at all, and from how many elements on. -/
structure Options where
  useCodes : Bool
  minElements : Nat

def Options.standard : Options :=
  ⟨true, 0⟩

/-- The codes of two grids, if both have them and the options admit their use. -/
def codePair? (options : Options) (f : Form) (a b : Grid f.Element) :
    Option (Grid Int × Grid Int) :=
  if options.useCodes ∧ options.minElements ≤ a.items.length + b.items.length then do
    let first ← f.codes? a.items
    let second ← f.codes? b.items
    some (⟨a.shape, first⟩, ⟨b.shape, second⟩)
  else none

/-- The rows as lists of elements. -/
def rowItems {α : Type} (a : Grid α) : List (List α) :=
  a.rows.map (·.items)

/-- What is asked about each row. -/
inductive Question where
  | member
  | first
  | next
deriving DecidableEq

namespace Question

def byCode : Question → List (List Int) → List (List Int) → List Nat
  | .member => membersByCode
  | .first => firstByCode
  | .next => nextByCode

def byKey : Question → List (List Key) → List (List Key) → List Nat
  | .member => membersByKey
  | .first => firstByKey
  | .next => nextByKey

/-- The answer for a row found at a position, or at the end of all rows if it is absent. -/
def answerAt (question : Question) (position count : Int) : Int :=
  match question with
  | .member => if position < count then 1 else 0
  | .first | .next => position

/-- Answers are bytes for membership and numbers for positions. -/
def kind : Question → Kind
  | .member => .byte
  | .first | .next => .number

/-- The element as which an answer is given out. A position beyond all numbers is refused. -/
def store : (question : Question) → Int → Except Error question.kind.Element
  | .member, n => .ok (UInt8.ofNat n.toNat)
  | .first, n | .next, n => Kind.coerceNumber (.integer n)

end Question

/-- The answers for the rows of one grid among the rows of another of the same rank, by codes
where both grids have rows and all elements have codes. -/
def amongEqualRows (question : Question) (options : Options) (f : Form) (a b : Grid f.Element) :
    List Nat :=
  let codes := if a.rowCount = 0 ∨ b.rowCount = 0 then none else codePair? options f a b
  match codes with
  | some (first, second) => question.byCode (rowItems first) (rowItems second)
  | none => question.byKey (rowItems (a.map f.key)) (rowItems (b.map f.key))

/-- The answers for the rows of one grid among the rows of another of the same rank. Rows of
different shapes are never equal, and a negative number of rows is no row at all. -/
def amongRows (question : Question) (options : Options) (f : Form) (a b : Grid f.Element) :
    List Int :=
  if a.rowShape ≠ b.rowShape ∨ b.rowCount < 0 then
    List.replicate a.rowCount.toNat (question.answerAt b.rowCount b.rowCount)
  else (amongEqualRows question options f a b).map Int.ofNat

/-- The answers as they are given out. Rows of another shape are all answered alike, and what they
are answered with is stored even if there are none of them. -/
def storedRows (question : Question) (options : Options) (f : Form) (a b : Grid f.Element) :
    Except Error (List question.kind.Element) := do
  if a.rowShape ≠ b.rowShape then
    let _ ← question.store (question.answerAt b.rowCount b.rowCount)
  (amongRows question options f a b).mapM question.store

/-- The position of a row among the rows of a grid, or their number. Rows without elements
are all equal. -/
def rowPosition (f : Form) (row b : Grid f.Element) : Int :=
  if row.shape ≠ b.rowShape ∨ b.rowCount < 0 then b.rowCount
  else if b.rowSize = 0 then 0
  else Int.ofNat ((rowItems (b.map f.key)).findIdx (· = row.items.map f.key))

/-- The answers for every cell of whichever grid has more axes than the question needs. -/
def answers (question : Question) (options : Options) (f : Form) (a b : Grid f.Element) :
    Except Error (Grid question.kind.Element) :=
  if b.rank ≤ a.rank then do
    let depth := a.rank - b.rank
    let parts ← (a.cells depth).mapM fun cell => do
      Grid.fit question.kind ⟨cell.shape.take 1, ← storedRows question options f cell b⟩
    .ok ⟨Shape.endAtEmpty (a.shape.take depth) ++ (a.shape.drop depth).take 1,
      parts.flatMap (·.items)⟩
  else do
    let depth := b.rank - a.rank - 1
    let items ← (b.cells depth).mapM fun cell =>
      question.store (question.answerAt (rowPosition f a cell) cell.rowCount)
    .ok ⟨Shape.endAtEmpty (b.shape.take depth), items⟩

end Search

namespace Value

/-- The codes of the elements as they are given out. The code of a byte is what stands for
it. -/
def givenCodes? (v : Value) : Option (List Operand) :=
  if v.kind = .byte then some v.leaves.items
  else (v.form.codes? v.grid.items).map fun codes => codes.map Operand.integer

/-- Ask a question about the rows of one value among the rows of another. -/
def searchRows (question : Search.Question) (pairing : Pairing) (options : Search.Options)
    (elems of_ : Value) : Except Error Value := do
  let both ← unify pairing elems of_
  .ok (.ofGrid (.uniform question.kind)
    (← Search.answers question options both.form both.first both.second))

end Value

/-- For each row of `elems`, whether it is a row of the other operand. -/
def member (elems of_ : Operand) (options : Search.Options) : Except Error Value := do
  let elems ← elems.toValue
  elems.searchRows .member .members options (← of_.toValue)

/-- For each row of `elems`, its first position among the rows of the other operand, or the
number of those rows. -/
def indexOf (elems of_ : Operand) (options : Search.Options) : Except Error Value := do
  let elems ← elems.toValue
  elems.searchRows .first .indices options (← of_.toValue)

/-- As `indexOf`, but every row of the other operand answers at most one query. -/
def progressiveIndexOf (elems of_ : Operand) (options : Search.Options) : Except Error Value := do
  let elems ← elems.toValue
  elems.searchRows .next .indices options (← of_.toValue)

end RowMajor
