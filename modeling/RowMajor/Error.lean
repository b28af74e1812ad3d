import RowMajor.Buffer.Fault
import RowMajor.Operand.Basic

/-!
# Errors

An operation fails for one of a fixed set of causes. They fall into classes: shapes that
do not fit, kinds of element that do not fit, an undo that has no unambiguous answer,
and an index out of bounds; building a value can moreover fail on a wrong number of
elements or on an integer beyond all numbers, and a character that stands among numbers
may not be read as one. A negative length can make a part of the
elements be asked for that is not there, which is a fault of the buffer they stand in.
Every cause carries what its message mentions.
-/

namespace RowMajor

/-- What an operation needs an integer operand for. -/
inductive Role where
  | integers
  | naturals
  | integer
  | newShape
  | oldShape
  | rank
  | rankedShape
  | counts
  | offsets
  | offsetTable
  | windowSizes
  | indexTable
  | indexList
deriving DecidableEq

namespace Role

def requirement : Role → String
  | .integers => "Operand must be integers"
  | .naturals => "Operand must be naturals"
  | .integer => "Operand must be an integer"
  | .newShape => "Shape should be a single natural number or a list of integers"
  | .oldShape => "Shape should be a list of natural numbers"
  | .rank => "Rank must be an integer"
  | .rankedShape => "Shape must be a list of natural numbers"
  | .counts => "Keep amount must be a natural number or list of natural numbers"
  | .offsets => "Rotation amount must be a list of integers"
  | .offsetTable => "Rotation amount must be an array of integers"
  | .windowSizes => "Window size must be a list of integers"
  | .indexTable => "Index must be an array of integers"
  | .indexList => "Index must be a list of integers"

end Role

/-- The operations that bring two values to one kind. -/
inductive Pairing where
  | combine
  | unkeep
  | find
  | members
  | indices
  | unpick
  | untake
  | undrop
  | unselect
deriving DecidableEq

namespace Pairing

def refusal (p : Pairing) (a b : Kind) : String :=
  match p with
  | .combine => "Cannot combine " ++ a.name ++ " array with " ++ b.name ++ " array"
  | .unkeep => "Cannot unkeep " ++ a.name ++ " array with " ++ b.name ++ " array"
  | .find => "Cannot find " ++ a.name ++ " in " ++ b.name ++ " array"
  | .members => "Cannot look for members of " ++ a.name ++ " array in " ++ b.name ++ " array"
  | .indices => "Cannot look for indices of " ++ a.name ++ " array in " ++ b.name ++ " array"
  | .unpick => "Cannot unpick " ++ a.name ++ " array from " ++ b.name ++ " array"
  | .untake => "Cannot untake " ++ a.name ++ " into " ++ b.name
  | .undrop => "Cannot undrop " ++ a.name ++ " into " ++ b.name
  | .unselect => "Cannot unselect " ++ a.name ++ " array into " ++ b.name ++ " array"

end Pairing

/-- Why there is no fill element for an array. -/
inductive MissingFill where
  | absent
  /-- The fill value is of one kind and cannot fill arrays of the other. -/
  | unusable (fill array : Kind)
deriving DecidableEq

namespace MissingFill

/-- The reason as it is appended to a message. -/
def note : MissingFill → String
  | .absent => ". A fill value is not available"
  | .unusable fill array =>
    ". The fill value is " ++ fill.name ++ ", which cannot fill a " ++ array.name ++ " array"

end MissingFill

/-- The operations that follow an index down the leading axes. -/
inductive Descent where
  | pick
  | take
  | drop
  | rotate
deriving DecidableEq

def Descent.refusal : Descent → String
  | .pick => "Cannot pick from"
  | .take => "Cannot take from"
  | .drop => "Cannot drop from"
  | .rotate => "Cannot rotate"

/-- The two ways to cut a section out of an array. -/
inductive Section where
  | take
  | drop
deriving DecidableEq

namespace Section

def name : Section → String
  | .take => "take"
  | .drop => "drop"

def participle : Section → String
  | .take => "taken"
  | .drop => "dropped"

end Section

/-- The two ways to gather parts of an array by an index array. -/
inductive Gathering where
  | pick
  | select
deriving DecidableEq

def Gathering.name : Gathering → String
  | .pick => "pick"
  | .select => "selection"

/-- Where the axis to be derived stands among the dimensions. -/
inductive Place where
  | first
  | last
  | middle
deriving DecidableEq

/-- The other axes, seen from the derived one. -/
def Place.others : Place → String
  | .first => "non-leading"
  | .last => "non-trailing"
  | .middle => "outer"

inductive ShapeError where
  | ragged
  | elementCount (count : Nat) (shape : Shape)
  | operandRank (role : Role) (rank : Nat)
  | rowShapes (first other : Shape)
  | resize (shape target : Shape)
  | join (a b : Shape)
  | frames (a b aFrame bFrame : Shape)
  | severalDerived (count : Nat)
  | zeroBesideDerived (place : Place)
  | nothingToRepeat (target : Shape) (fill : MissingFill)
  | rerank (magnitude rank : Nat)
  | tooFewCounts (shape : Shape) (counts : Nat) (fill : MissingFill)
  /-- With more counts than rows a fill value is of no help, and the message says so. -/
  | tooManyCounts (shape : Shape) (counts : Nat) (fill : Option MissingFill)
  | indexLength (descent : Descent) (rank length : Nat)
  | offsetRank (rank : Nat)
  | zeroWindow
  | windowRank (sizes : List Int) (shape : Shape)
  | windowSize (size axis : Int)
  | scalarSection (cut : Section)
  | undoIndexLength (cut : Section) (rank length : Nat)

namespace ShapeError

def keepText (shape : Shape) (counts : Nat) : String :=
  "Cannot keep array with shape " ++ shape.text ++ " with array of shape " ++
    Shape.text [Int.ofNat counts]

def message : ShapeError → String
  | .ragged => "Cannot build an array from ragged nested data"
  | .elementCount count shape =>
    "Cannot shape " ++ toString count ++ " elements as " ++ shape.text
  | .operandRank role rank => role.requirement ++ ", but it has rank " ++ toString rank
  | .rowShapes first other =>
    "Cannot combine rows with shapes " ++ first.text ++ " and " ++ other.text
  | .resize shape target =>
    "Cannot fill array of shape " ++ shape.text ++ " to shape " ++ target.text
  | .join a b => "Cannot join arrays of shapes " ++ a.text ++ " and " ++ b.text
  | .frames a b aFrame bFrame =>
    "Cannot combine arrays with shapes " ++ a.text ++ " and " ++ b.text ++
      " because shape prefixes " ++ aFrame.text ++ " and " ++ bFrame.text ++ " are not compatible"
  | .severalDerived count =>
    "Cannot reshape array with " ++ toString count ++ " negative dimensions"
  | .zeroBesideDerived place =>
    "Cannot reshape array with any 0 " ++ place.others ++ " dimensions"
  | .nothingToRepeat target fill =>
    "Cannot reshape empty array to " ++ target.text ++ " without a fill value" ++ fill.note
  | .rerank magnitude rank =>
    "Negative rerank has magnitude " ++ toString magnitude ++
      ", which is greater than the array's rank " ++ toString rank
  | .tooFewCounts shape counts fill => keepText shape counts ++ fill.note
  | .tooManyCounts shape counts (some fill) => keepText shape counts ++ fill.note
  | .tooManyCounts shape counts none =>
    keepText shape counts ++ ". A fill value is available, but keep can only be filled " ++
      "if there are fewer counts than rows"
  | .indexLength descent rank length =>
    descent.refusal ++ " rank " ++ toString rank ++ " array with index of length " ++
      toString length
  | .offsetRank rank => "Cannot rotate by rank " ++ toString rank ++ " array"
  | .zeroWindow => "Window size cannot be zero"
  | .windowRank sizes shape =>
    "Window size " ++ Text.listText (sizes.map toString) ++ " has too many axes for shape " ++
      shape.text
  | .windowSize size axis =>
    "Window size " ++ toString size ++ " is too large for axis of length " ++ toString axis
  | .scalarSection cut => "Cannot " ++ cut.name ++ " from scalar"
  | .undoIndexLength cut rank length =>
    "Cannot undo " ++ cut.name ++ " on rank " ++ toString rank ++ " array with index of length " ++
      toString length

end ShapeError

inductive KindError where
  | notInteger (role : Role) (x : Binary64)
  | notNumeric (role : Role) (kind : Kind)
  | negative (role : Role) (item : Operand)
  | unmatched (pairing : Pairing) (a b : Kind)
  | element (kind : Kind) (item : Operand)
  | keepFill (x : Binary64)

namespace KindError

/-- Why an operand cannot be an element of a kind. -/
def elementText (item : Operand) : Kind → String
  | .number => "Cannot store " ++ item.typeName ++ " " ++ item.written ++ " in a number array"
  | .byte => "Cannot store " ++ item.written ++ " in a byte array"
  | .complex => "Cannot store " ++ item.typeName ++ " " ++ item.written ++ " in a complex array"
  | .character => "Character arrays hold single codepoints, not " ++ item.written
  | .box => "Box arrays hold boxed values, not " ++ item.typeName

def message : KindError → String
  | .notInteger role x => role.requirement ++ ", but " ++ x.text ++ " is not an integer"
  | .notNumeric role kind => role.requirement ++ ", not " ++ kind.name ++ " array"
  | .negative role item => role.requirement ++ ", but " ++ item.written ++ " is negative"
  | .unmatched pairing a b => pairing.refusal a b
  | .element kind item => elementText item kind
  | .keepFill x =>
    "Fill value for keep must be a non-negative integer, but it is " ++ x.text

end KindError

inductive InverseError where
  | scalarReshape
  | unreshape (old shape : Shape)
  | unrerank (shape target : Shape)
  | nonBooleanCounts
  | scalarCounts
  | keepIntoScalar
  | fewerKeptRows
  | moreKeptRows
  | keptRowShape (old new : Shape)
  | gatheredShape (gathering : Gathering) (expected shape : Shape)
  | duplicates (gathering : Gathering)
  | sectionShape (cut : Section) (expected shape : Shape)
  | sectionRows (cut : Section) (count rows : Nat)

namespace InverseError

def message : InverseError → String
  | .scalarReshape => "Cannot undo scalar reshape"
  | .unreshape old shape =>
    "Cannot unreshape array because its old shape was " ++ old.text ++
      ", but its new shape is " ++ shape.text ++ ", which has a different number of elements"
  | .unrerank shape target =>
    "Cannot unrerank array of shape " ++ shape.text ++ " to " ++ target.text ++
      " because the number of elements changed"
  | .nonBooleanCounts => "Cannot invert keep with non-boolean counts"
  | .scalarCounts => "Cannot invert scalar keep"
  | .keepIntoScalar => "Cannot invert keep into a scalar"
  | .fewerKeptRows =>
    "Kept array has fewer rows than it was created with, so the keep cannot be inverted"
  | .moreKeptRows =>
    "Kept array has more rows than it was created with, so the keep cannot be inverted"
  | .keptRowShape old new =>
    "Kept array's shape was changed from " ++ old.text ++ " to " ++ new.text ++
      ", so the keep cannot be inverted"
  | .gatheredShape gathering expected shape =>
    "Attempted to undo " ++ gathering.name ++
      ", but the shape of the selected array changed from " ++ expected.text ++ " to " ++ shape.text
  | .duplicates gathering => "Cannot undo " ++ gathering.name ++ " with duplicate indices"
  | .sectionShape cut expected shape =>
    "Attempted to undo " ++ cut.name ++ ", but the " ++ cut.participle ++
      " section's shape was modified from " ++ expected.text ++ " to " ++ shape.text
  | .sectionRows cut count rows =>
    "Attempted to undo " ++ cut.name ++ ", but the " ++ cut.participle ++ " section has " ++
      toString count ++ " rows and the original array only has " ++ toString rows

end InverseError

/-- An index outside `[-bound, bound)`, with the axis and the shape it was meant for if they
are known, and a note on what could have stood in for the missing elements. -/
structure OutOfBounds where
  index : Int
  bound : Int
  axis : Option Int
  shape : Option Shape
  note : String
deriving DecidableEq

namespace OutOfBounds

def axisText : Option Int → String
  | some axis => " (dimension " ++ toString axis ++ ")"
  | none => ""

def shapeText : Option Shape → String
  | some shape => " in shape " ++ shape.text
  | none => ""

def message (e : OutOfBounds) : String :=
  "Index " ++ toString e.index ++ " is out of bounds of length " ++ toString e.bound ++
    axisText e.axis ++ shapeText e.shape ++ e.note

end OutOfBounds

inductive Error where
  | shape (cause : ShapeError)
  | kind (cause : KindError)
  | inverse (cause : InverseError)
  | bounds (cause : OutOfBounds)
  /-- A grid was asked for with a shape that does not account for its elements. -/
  | mismatch (k : Kind) (shape : Shape) (count : Nat)
  /-- An integer lies beyond all finite numbers. -/
  | tooLarge
  /-- A character that stands among numbers is no numeral. -/
  | notNumeral (c : Char)
  | buffer (cause : Buffer.Fault)

namespace Error

def message : Error → String
  | .shape cause => cause.message
  | .kind cause => cause.message
  | .inverse cause => cause.message
  | .bounds cause => cause.message
  | .mismatch k s count =>
    k.gridName ++ " shape " ++ s.text ++ " does not match " ++ toString count ++ " elements"
  | .tooLarge => "int too large to convert to float"
  | .notNumeral c => "could not convert string to float: " ++ Text.quoted [c]
  | .buffer cause => cause.message

/-- The error for an index into one axis of an array of the given shape. -/
def outside (index bound : Int) (axis : Nat) (s : Shape) (note : String) : Error :=
  .bounds ⟨index, bound, some (Int.ofNat axis), some s, note⟩

end Error

end RowMajor
