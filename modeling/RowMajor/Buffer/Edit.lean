import RowMajor.Buffer.Fault
import RowMajor.Index

/-!
# Edits and queries of lists

What can be done with the items of a buffer is said of plain lists. An edit turns the
list into another one and gives an answer, a query only gives an answer, and either may
be refused. Positions count from the end if they are negative.

A query sees its items through a view, which tells their number, gives the item at a
position, and goes through all of them. A list is viewed as it is.
-/

namespace RowMajor.Buffer

variable {α : Type}

/-- What an operation on a buffer answers. -/
inductive Answer (α : Type) where
  | nothing
  | item (x : α)
  | items (xs : List α)
  | count (n : Nat)
  | flag (b : Bool)
deriving DecidableEq

abbrev Edit (α : Type) := List α → Except Fault (List α × Answer α)

/-- How items are read: their number, the one at a position, and all of them in their order. -/
structure View (α : Type) where
  length : Nat
  item : Int → Except Fault α
  items : List α

def View.ofList (xs : List α) : View α where
  length := xs.length
  item := fun i =>
    match (resolveIndex i xs.length).bind (xs[·]?) with
    | some x => .ok x
    | none => .error .position
  items := xs

abbrev Query (α : Type) := View α → Except Fault (Answer α)

namespace Edit

def append (x : α) : Edit α := fun xs => .ok (xs ++ [x], .nothing)

def extend (more : List α) : Edit α := fun xs => .ok (xs ++ more, .nothing)

/-- Append the items of the list itself from `start` on, one by one. Each is read when its turn
comes, from the list as it has grown by then. -/
def appendOwn (start : Nat) : Nat → List α → List α
  | 0, xs => xs
  | count + 1, xs =>
    match xs[start]? with
    | some x => appendOwn (start + 1) count (xs ++ [x])
    | none => xs

def extendOwn (start count : Nat) : Edit α := fun xs => .ok (appendOwn start count xs, .nothing)

def reverse : Edit α := fun xs => .ok (xs.reverse, .nothing)

def clear : Edit α := fun _ => .ok ([], .nothing)

/-- Take the last item out. -/
def pop : Edit α := fun xs =>
  match xs.getLast? with
  | some x => .ok (xs.dropLast, .item x)
  | none => .error .popFromEmpty

def set (i : Int) (x : α) : Edit α := fun xs =>
  match resolveIndex i xs.length with
  | some p => .ok (xs.set p x, .nothing)
  | none => .error .assignment

/-- Insert an item before a position; one beyond either end means that end. -/
def insert (i : Int) (x : α) : Edit α := fun xs =>
  let p := resolveBound i xs.length
  .ok (xs.take p ++ x :: xs.drop p, .nothing)

/-- The list followed by itself. -/
def double : Edit α := fun xs => .ok (xs ++ xs, .nothing)

/-- Change nothing and answer the length. -/
def measure : Edit α := fun xs => .ok (xs, .count xs.length)

end Edit

/-- A range of positions with a step. What is absent is filled in from the length. -/
structure Span where
  start : Option Int
  stop : Option Int
  step : Option Int

namespace Span

/-- A bound counted from the end if it is negative, and brought between two limits. -/
def clamp (low high : Int) (length : Nat) (bound : Int) : Int :=
  max low (min high (if bound < 0 then bound + Int.ofNat length else bound))

/-- How many steps lead from `start` to `stop` without reaching it. -/
def stepCount (start stop step : Int) : Nat :=
  if 0 < step then ((stop - start + step - 1) / step).toNat
  else ((start - stop - step - 1) / -step).toNat

/-- The positions of a span in a list of the given length, for a step that is not zero. -/
def positions (s : Span) (step : Int) (length : Nat) : List Nat :=
  let n := Int.ofNat length
  let (first, last) :=
    if 0 < step then
      ((s.start.map (clamp 0 n length)).getD 0, (s.stop.map (clamp 0 n length)).getD n)
    else
      ((s.start.map (clamp (-1) (n - 1) length)).getD (n - 1),
        (s.stop.map (clamp (-1) (n - 1) length)).getD (-1))
  (List.range (stepCount first last step)).map fun k => (first + Int.ofNat k * step).toNat

end Span

namespace Query

def get (i : Int) : Query α := fun v => do .ok (.item (← v.item i))

def getSpan (s : Span) : Query α := fun v =>
  let step := s.step.getD 1
  if step = 0 then .error .zeroStep
  else .ok (.items ((s.positions step v.items.length).filterMap (v.items[·]?)))

def contains [BEq α] (x : α) : Query α := fun v => .ok (.flag (v.items.contains x))

def count [BEq α] (x : α) : Query α := fun v => .ok (.count (v.items.count x))

/-- The items from the last position to the first. -/
def reversed : Query α := fun v => do
  .ok (.items (← (List.range v.length).reverse.mapM fun i => v.item (Int.ofNat i)))

/-- Whether an item stands at a position. -/
def standsAt [BEq α] (x : α) (v : View α) (i : Int) : Bool :=
  match v.item i with
  | .ok y => y == x
  | .error _ => false

/-- The first position of an item from `start` on and before `stop`. A start that lies before
the first item, counted from the end, means the first item. -/
def find [BEq α] (x : α) (start : Int) (stop : Option Int) : Query α := fun v =>
  let n := Int.ofNat v.length
  let first := if start < 0 then max (n + start) 0 else start
  let last := match stop with
    | some s => if s < 0 then s + n else s
    | none => n
  let inside (i : Nat) : Bool := first ≤ Int.ofNat i && Int.ofNat i < last
  match (List.range v.length).find? fun i => inside i && standsAt x v (Int.ofNat i) with
  | some i => .ok (.count i)
  | none => .error .notFound

end Query

end RowMajor.Buffer
