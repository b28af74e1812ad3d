import RowMajor.Buffer.Edit
import RowMajor.Buffer.Table

/-!
# Shared storage

A storage is a list of items together with the handles that refer to it. A handle shows
a window of its storage, and copying or slicing a handle makes another one over the same
storage. An item is never changed in a storage that another handle refers to: a handle
that is not the only owner, or whose window does not span the whole storage, moves to a
fresh copy of its window before it is written to.

The pool holds all storages and a table of named handles. Every handle has a number of
its own, by which the storages know their owners.
-/

namespace RowMajor.Buffer

/-- Items and the numbers of the handles that refer to them. -/
structure Storage (α : Type) where
  items : List α
  owners : List Nat

/-- A window onto a storage, from `start` up to `stop`. -/
structure Handle where
  number : Nat
  storage : Nat
  start : Nat
  stop : Nat
deriving DecidableEq

structure Pool (α : Type) where
  storages : List (Storage α)
  handles : Table Handle
  nextNumber : Nat

namespace Handle

def length (h : Handle) : Nat :=
  h.stop - h.start

/-- Whether two handles show the same window of the same storage. -/
def isCopyOf (h other : Handle) : Bool :=
  h.storage == other.storage && h.start == other.start && h.stop == other.stop

/-- Make the window shorter; a length beyond its own leaves it as it is. -/
def truncate (length : Int) (h : Handle) : Handle :=
  { h with stop := min (h.start + length.toNat) h.stop }

end Handle

namespace Pool

variable {α : Type}

def empty : Pool α :=
  ⟨[], [], 0⟩

/-- All items of the storage behind a handle. -/
def stored (p : Pool α) (h : Handle) : List α :=
  (p.storages[h.storage]?.map Storage.items).getD []

/-- The items that a handle shows. -/
def contents (p : Pool α) (h : Handle) : List α :=
  ((p.stored h).drop h.start).take h.length

/-- The item at a position of what a handle shows, found in the storage behind it. -/
def item (p : Pool α) (h : Handle) (i : Int) : Except Fault α :=
  let n := Int.ofNat h.length
  let index := if i < 0 then i + n else i
  if index < 0 ∨ n ≤ index then .error .position
  else match (p.stored h)[h.start + index.toNat]? with
    | some x => .ok x
    | none => .error .position

/-- What a handle shows, as it is read. -/
def view (p : Pool α) (h : Handle) : View α :=
  ⟨h.length, p.item h, p.contents h⟩

/-- Whether a handle is the only owner of its storage. -/
def isUnique (p : Pool α) (h : Handle) : Bool :=
  (p.storages[h.storage]?.map fun s => s.owners.length) == some 1

/-- Whether a handle shows all of its storage. -/
def isFullExtent (p : Pool α) (h : Handle) : Bool :=
  h.start == 0 && h.stop == (p.stored h).length

def updateStorage (i : Nat) (f : Storage α → Storage α) (p : Pool α) : Pool α :=
  { p with storages := p.storages.modify i f }

/-- A storage stops counting a handle among its owners. -/
def release (h : Handle) (p : Pool α) : Pool α :=
  p.updateStorage h.storage fun s => { s with owners := s.owners.erase h.number }

/-- A fresh storage owned by one handle, which shows all of it. -/
def storeFor (number : Nat) (items : List α) (p : Pool α) : Pool α × Handle :=
  ({ p with storages := p.storages ++ [⟨items, [number]⟩] },
    ⟨number, p.storages.length, 0, items.length⟩)

/-- A new handle to items of its own. -/
def allocate (items : List α) (p : Pool α) : Pool α × Handle :=
  storeFor p.nextNumber items { p with nextNumber := p.nextNumber + 1 }

/-- A new handle to a window of the storage of another handle. -/
def share (h : Handle) (start stop : Nat) (p : Pool α) : Pool α × Handle :=
  let number := p.nextNumber
  ({ p with nextNumber := number + 1 }.updateStorage h.storage
      fun s => { s with owners := s.owners ++ [number] },
    ⟨number, h.storage, start, stop⟩)

/-- Move a handle to a fresh storage with the given items. -/
def replace (h : Handle) (items : List α) (p : Pool α) : Pool α × Handle :=
  (p.release h).storeFor h.number items

/-- The part of a window from `start` to `stop`, counted from its beginning, as a window of
the storage. -/
def window (h : Handle) (start : Int) (stop : Option Int) : Except Fault (Nat × Nat) :=
  let begin := Int.ofNat h.start + start
  let finish := match stop with
    | some s => Int.ofNat h.start + s
    | none => Int.ofNat h.stop
  if start < 0 ∨ finish < begin ∨ Int.ofNat h.stop < finish then
    .error (.slice start stop h.length)
  else .ok (begin.toNat, finish.toNat)

/-- Whether a handle may be written to where it is. -/
def isOwned (p : Pool α) (h : Handle) : Bool :=
  p.isUnique h && p.isFullExtent h

/-- Write the items of the storage behind a handle, which then shows all of them. -/
def overwrite (h : Handle) (items : List α) (p : Pool α) : Pool α × Handle :=
  (p.updateStorage h.storage fun s => { s with items },
    { h with stop := items.length })

/-- Edit the storage behind a handle if it may be written to, and otherwise a copy of what the
handle shows, which becomes a fresh storage. An edit that is refused leaves everything as it was. -/
def modify (h : Handle) (edit : Edit α) (p : Pool α) :
    Except Fault (Pool α × Handle × Answer α) :=
  if p.isOwned h then do
    let (items, answer) ← edit (p.stored h)
    let (p, h) := p.overwrite h items
    .ok (p, h, answer)
  else do
    let (items, answer) ← edit (p.contents h)
    let (p, h) := p.replace h items
    .ok (p, h, answer)

/-- Make sure that a handle may be written to where it is. -/
def own (h : Handle) (p : Pool α) : Pool α × Handle :=
  if p.isOwned h then (p, h) else p.replace h (p.contents h)

/-- Enter a handle under a name, and release the one that was there. -/
def bind (name : String) (h : Handle) (p : Pool α) : Pool α :=
  let released := match p.handles.get? name with
    | some old => p.release old
    | none => p
  { released with handles := released.handles.put name h }

/-- Enter a handle that takes the place of an earlier state of itself. -/
def rebind (name : String) (h : Handle) (p : Pool α) : Pool α :=
  { p with handles := p.handles.put name h }

/-- The handle under a name. -/
def find (name : String) (p : Pool α) : Except Fault Handle :=
  match p.handles.get? name with
  | some h => .ok h
  | none => .error (.unknown name)

/-- The first name whose handle refers to the same storage. -/
def storageName? (p : Pool α) (h : Handle) : Option String :=
  (p.handles.find? fun (_, other) => other.storage == h.storage).map Prod.fst

/-- The names of the other handles that show the same window. -/
def copiesOf (p : Pool α) (name : String) (h : Handle) : List String :=
  (p.handles.filter fun (other, g) => other ≠ name && g.isCopyOf h).map Prod.fst

end Pool

end RowMajor.Buffer
