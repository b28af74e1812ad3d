import RowMajor.Value.Basic

/-!
# Row search by integer codes

Elements of the simple kinds have integer codes that are equal exactly when the
elements are. Rows of codes are compared all at once, every query with every searched
row, in a matrix of truth values. A query is answered from its line of the matrix.
-/

namespace RowMajor

namespace Kind

/-- Whether an integer fits into 32 bits with a sign. -/
def inCodeRange (n : Int) : Bool :=
  -2147483648 ≤ n && n ≤ 2147483647

/-- The code of a number, if it is an integer of 32 bits. -/
def numberCode? (x : Binary64) : Option Int :=
  x.toInt?.bind fun n => if inCodeRange n then some n else none

/-- The codes of elements. Complex numbers and boxes have none, and of numbers either all
have one or the list has none. -/
def codes? : (k : Kind) → List k.Element → Option (List Int)
  | .number, items => items.mapM numberCode?
  | .byte, items => some (items.map fun b => Int.ofNat b.toNat)
  | .character, items => some (items.map fun c => Int.ofNat c.toNat)
  | .complex, _ => none
  | .box, _ => none

/-- The code of an element of a mixed value that goes by the kind. A number among bytes counts
without its fraction. -/
def itemCode? : Kind → Item Value → Option Int
  | .number, .number x => numberCode? x
  | .number, .byte b => some (Int.ofNat b.toNat)
  | .byte, .number x => some x.truncate
  | .byte, .byte b => some (Int.ofNat b.toNat)
  | .character, .character c => some (Int.ofNat c.toNat)
  | _, _ => none

end Kind

/-- The codes of elements of a form. -/
def Form.codes? : (f : Form) → List f.Element → Option (List Int)
  | .uniform k, items => k.codes? items
  | .mixed k, items => items.mapM k.itemCode?

namespace Search

/-- Whether two rows of codes agree in every column. -/
def sameCodes (query row : List Int) : Bool :=
  (query.zip row).all fun (c, d) => c == d

/-- One line for every query, one column for every searched row. -/
def equalityMatrix (queries searched : List (List Int)) : List (List Bool) :=
  queries.map fun query => searched.map (sameCodes query)

/-- The first true entry of a line, or `missing` if there is none. -/
def firstTrue (line : List Bool) (missing : Nat) : Nat :=
  if line.any id then line.findIdx id else missing

def membersByCode (queries searched : List (List Int)) : List Nat :=
  (equalityMatrix queries searched).map fun line => (line.any id).toNat

def firstByCode (queries searched : List (List Int)) : List Nat :=
  (equalityMatrix queries searched).map (firstTrue · searched.length)

/-- Go through the queries from left to right, marking every row that is given out as used. -/
def scanUnused (searched : List (List Int)) : List Bool → List (List Int) → List Nat
  | _, [] => []
  | used, query :: queries =>
    let available := (searched.map (sameCodes query)).zipWith (fun same u => same && !u) used
    let answer := firstTrue available searched.length
    answer :: scanUnused searched (used.set answer true) queries

def nextByCode (queries searched : List (List Int)) : List Nat :=
  scanUnused searched (List.replicate searched.length false) queries

end Search

end RowMajor
