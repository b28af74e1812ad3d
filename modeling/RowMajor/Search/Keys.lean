/-!
# Row search by keys

Each row is represented by a list of keys, and rows are equal when their lists are. The
searched rows are entered into a dictionary that maps a row to the positions at which
it occurs, in increasing order; queries are then answered from the dictionary.
-/

namespace RowMajor.Search

variable {κ : Type} [DecidableEq κ]

/-- For every distinct key the positions at which it occurs. -/
abbrev Positions (κ : Type) := List (κ × List Nat)

namespace Positions

/-- Enter one more position, the last one so far, of a key. -/
def add (k : κ) (i : Nat) : Positions κ → Positions κ
  | [] => [(k, [i])]
  | (other, places) :: rest =>
    if other = k then (other, places ++ [i]) :: rest else (other, places) :: add k i rest

def ofKeys (keys : List κ) : Positions κ :=
  keys.zipIdx.foldl (fun table (k, i) => table.add k i) []

def placesOf (table : Positions κ) (k : κ) : List Nat :=
  (table.lookup k).getD []

/-- Leave out the first of the positions of a key. -/
def removeFirst (k : κ) : Positions κ → Positions κ
  | [] => []
  | (other, places) :: rest =>
    if other = k then (other, places.tail) :: rest else (other, places) :: removeFirst k rest

end Positions

/-- For every query one if it is among the searched keys, else zero. -/
def membersByKey (queries searched : List κ) : List Nat :=
  queries.map fun k => (searched.contains k).toNat

/-- For every query its first position, or the number of searched keys. -/
def firstByKey (queries searched : List κ) : List Nat :=
  let table := Positions.ofKeys searched
  queries.map fun k => (table.placesOf k).headD searched.length

/-- Answer the queries one after the other, each with the first position that is left. -/
def takeByKey (missing : Nat) : Positions κ → List κ → List Nat
  | _, [] => []
  | table, k :: queries =>
    (table.placesOf k).headD missing :: takeByKey missing (table.removeFirst k) queries

/-- For every query its first position not given to an earlier query. -/
def nextByKey (queries searched : List κ) : List Nat :=
  takeByKey searched.length (Positions.ofKeys searched) queries

end RowMajor.Search
