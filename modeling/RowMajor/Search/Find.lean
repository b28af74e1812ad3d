import RowMajor.Search.Rows
import RowMajor.Windows

/-!
# Finding a block

A needle is looked for at every place of a haystack where it fits. The result marks the
corners of the windows that are equal to the needle. Missing leading axes of the needle
count as axes of length one. A haystack that is too small along some axis is padded
with the fill value first; without a fill the needle is nowhere in it.
-/

namespace RowMajor

namespace Search

variable {α : Type}

/-- A shape with as many leading axes of length one as it takes to reach a rank. -/
def padShape (rank : Nat) (s : Shape) : Shape :=
  List.replicate (rank - s.length) 1 ++ s

/-- Whether some axis of the needle is missing in the haystack or longer than there. -/
def exceeds (needle haystack : Shape) : Bool :=
  decide (haystack.length < needle.length) ||
    (needle.reverse.zip haystack.reverse).any fun (n, h) => decide (h < n)

/-- The least shape that has room for both, aligned at the last axis. -/
def commonShape (s t : Shape) : Shape :=
  let rank := max s.length t.length
  (padShape rank s).zipWith max (padShape rank t)

/-- One for every window of the haystack that passes a test of its places, zero for the others. -/
def markWindows (needle haystack : Grid α) (test : List Nat → Bool) : Grid Nat :=
  let window := padShape haystack.rank needle.shape
  let corners : Shape := haystack.shape.corners window
  let places := pieces needle.items.length corners.volume (haystack.shape.windowOffsets window)
  ⟨corners, places.map fun spots => (test spots).toNat⟩

/-- The codes of each window are gathered, and then compared with those of the needle. -/
def matchCodes (needle haystack : Grid Int) : Grid Nat :=
  markWindows needle haystack fun spots => sameCodes needle.items (haystack.gather spots)

/-- The key of each element of a window is compared with the one in the needle as it is read. -/
def matchKeys (f : Form) (needle haystack : Grid f.Element) : Grid Nat :=
  let keys := needle.items.map f.key
  markWindows needle haystack fun spots =>
    (spots.zip keys).all fun (i, key) => decide (haystack.items[i]?.map f.key = some key)

/-- Compare by codes where the options admit it, by keys otherwise. -/
def findIn (options : Options) (f : Form) (needle haystack : Grid f.Element) : Grid Nat :=
  match codePair? options f needle haystack with
  | some (n, h) => matchCodes n h
  | none => matchKeys f needle haystack

/-- Mark the windows equal to the needle, padding the haystack if that is necessary. -/
def find (options : Options) (f : Form) (fill : Option f.Element)
    (needle haystack : Grid f.Element) : Except Error (Grid Nat) :=
  if exceeds needle.shape haystack.shape then
    match fill with
    | none => .ok ⟨haystack.shape, List.replicate haystack.items.length 0⟩
    | some x => do
      let padded ← haystack.resize f.kind (commonShape haystack.shape needle.shape) x
      Grid.fit .byte (findIn options f needle padded)
  else Grid.fit .byte (findIn options f needle haystack)

end Search

def Value.find (options : Search.Options) (fill : Fill) (needle haystack : Value) :
    Except Error Value := do
  let both := (← unify .find needle haystack).loosenFor fill
  let marks ← Search.find options both.form (fill.element? both.form) both.first both.second
  .ok (.byte (marks.map UInt8.ofNat))

/-- Mark every place of the haystack where a window equal to the needle begins. -/
def find (needle haystack : Operand) (fill : Fill) (options : Search.Options) :
    Except Error Value := do
  let needle ← needle.toValue
  Value.find options fill needle (← haystack.toValue)

end RowMajor
