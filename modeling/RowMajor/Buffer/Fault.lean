/-!
# Faults of buffers

A buffer refuses positions outside the part it shows. A fault records the request; its
message is worded here.
-/

namespace RowMajor.Buffer

inductive Fault where
  /-- A part from `start` to `stop` that a buffer of the given length does not have. An absent
  stop means the end of the buffer. -/
  | slice (start : Int) (stop : Option Int) (length : Nat)
  | splitPoint (at_ : Int) (length : Nat)
  | pieceSize (size : Int) (length : Nat)
  | position
  | assignment
  | popFromEmpty
  | negativeCapacity
  | zeroStep
  | notFound
  /-- There is no buffer of that name. -/
  | unknown (name : String)
deriving DecidableEq

namespace Fault

def stopText : Option Int → String
  | some stop => toString stop
  | none => "None"

def message : Fault → String
  | .slice start stop length =>
    "slice [" ++ toString start ++ ", " ++ stopText stop ++ ") is outside a buffer of length " ++
      toString length
  | .splitPoint at_ length =>
    "split point " ++ toString at_ ++ " is outside a buffer of length " ++ toString length
  | .pieceSize size length =>
    "buffer of length " ++ toString length ++ " cannot be split into slices of " ++ toString size
  | .position => "buffer index out of range"
  | .assignment => "list assignment index out of range"
  | .popFromEmpty => "pop from empty list"
  | .negativeCapacity => "capacity must be non-negative"
  | .zeroStep => "slice step cannot be zero"
  | .notFound => ""
  | .unknown name => name

end Fault

end RowMajor.Buffer
