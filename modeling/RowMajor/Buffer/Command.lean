import RowMajor.Buffer.Pool

/-!
# Commands on buffers

A command creates, reads, changes or releases a buffer by its name. `Pool.step` carries
it out over shared storage and says what it answers. A command that is refused leaves
every buffer with the items it had.
-/

namespace RowMajor.Buffer

variable {α : Type}

/-- Where additional items come from. -/
inductive Source (α : Type) where
  | items (xs : List α)
  | buffer (name : String)

inductive Command (α : Type) where
  | create (target : String) (items : List α)
  /-- An empty buffer that is going to grow to the given capacity. -/
  | reserve (target : String) (capacity : Int)
  | clone (name target : String)
  | slice (name target : String) (start : Int) (stop : Option Int)
  | splitOff (name target : String) (position : Int)
  /-- Slices of equal size, named by their number behind a common stem. -/
  | intoSlices (name stem : String) (size : Int)
  | release (name : String)
  | extend (name : String) (source : Source α)
  | truncate (name : String) (length : Int)
  | modify (name : String) (edit : Edit α)
  /-- Write one item in place, after making sure that the buffer owns its items. -/
  | write (name : String) (position : Int) (x : α)
  /-- Make sure that a buffer owns its items, and show them. -/
  | expose (name : String)
  | read (name : String) (query : Query α)

/-- The starting points of slices of equal size, if they cover the length exactly. -/
def sliceStarts (size : Int) (length : Nat) : Except Fault (List Nat) :=
  if size ≤ 0 ∨ length % size.toNat ≠ 0 then .error (.pieceSize size length)
  else .ok ((List.range (length / size.toNat)).map (· * size.toNat))

/-- The position at which to split a list of the given length. -/
def splitPosition (position : Int) (length : Nat) : Except Fault Nat :=
  if position < 0 ∨ Int.ofNat length < position then .error (.splitPoint position length)
  else .ok position.toNat

def checkCapacity (capacity : Int) : Except Fault Unit :=
  if capacity < 0 then .error .negativeCapacity else .ok ()

namespace Pool

/-- A new buffer with items of its own. -/
def create (target : String) (items : List α) (p : Pool α) : Pool α :=
  let (p, h) := p.allocate items
  p.bind target h

/-- Slices of one buffer, entered one after the other. -/
def bindSlices (h : Handle) (size : Nat) (stem : String) (starts : List Nat) (p : Pool α) :
    Pool α :=
  starts.zipIdx.foldl (fun p (start, i) =>
    let (p, piece) := p.share h (h.start + start) (h.start + start + size)
    p.bind (stem ++ toString i) piece) p

/-- The edit that appends what a source stands for. A buffer is read while the list grows, which
can only be noticed if the list is grown in the very storage that the buffer shows. -/
def extension (p : Pool α) (name : String) : Source α → Except Fault (Edit α)
  | .items xs => .ok (Edit.extend xs)
  | .buffer other => do
    let g ← p.find other
    let h ← p.find name
    if p.isOwned h ∧ g.storage = h.storage then .ok (Edit.extendOwn g.start g.length)
    else .ok (Edit.extend (p.contents g))

/-- Change the buffer under a name. -/
def modifyNamed (name : String) (edit : Edit α) (p : Pool α) :
    Except Fault (Pool α × Answer α) := do
  let (p, h, answer) ← p.modify (← p.find name) edit
  .ok (p.rebind name h, answer)

/-- Make sure that the buffer under a name may be written to where it is. -/
def ownNamed (name : String) (h : Handle) (p : Pool α) : Pool α × Handle :=
  let (p, h) := p.own h
  (p.rebind name h, h)

/-- Carry out a command that names existing buffers; the pool is returned in any case. -/
def attempt (p : Pool α) (result : Except Fault (Pool α × Answer α)) :
    Pool α × Except Fault (Answer α) :=
  match result with
  | .ok (p, answer) => (p, .ok answer)
  | .error fault => (p, .error fault)

def step (p : Pool α) : Command α → Pool α × Except Fault (Answer α)
  | .create target items => (p.create target items, .ok .nothing)
  | .reserve target capacity => p.attempt do
    checkCapacity capacity
    .ok (p.create target [], .nothing)
  | .clone name target => p.attempt do
    let h ← p.find name
    let (p, copy) := p.share h h.start h.stop
    .ok (p.bind target copy, .nothing)
  | .slice name target start stop => p.attempt do
    let h ← p.find name
    let (first, last) ← window h start stop
    let (p, part) := p.share h first last
    .ok (p.bind target part, .nothing)
  | .splitOff name target position => p.attempt do
    let h ← p.find name
    let position ← splitPosition position h.length
    let (p, tail) := p.allocate ((p.contents h).drop position)
    .ok ((p.rebind name (h.truncate (Int.ofNat position))).bind target tail, .nothing)
  | .intoSlices name stem size => p.attempt do
    let h ← p.find name
    let starts ← sliceStarts size h.length
    .ok (p.bindSlices h size.toNat stem starts, .nothing)
  | .release name => p.attempt do
    let h ← p.find name
    .ok ({ p.release h with handles := p.handles.remove name }, .nothing)
  | .extend name source => p.attempt do
    p.modifyNamed name (← p.extension name source)
  | .truncate name length => p.attempt do
    let h ← p.find name
    .ok (p.rebind name (h.truncate length), .nothing)
  | .modify name edit => p.attempt (p.modifyNamed name edit)
  | .write name position x =>
    match p.find name with
    | .error fault => (p, .error fault)
    | .ok h =>
      let (p, h) := p.ownNamed name h
      p.attempt do
        let (items, answer) ← Edit.set position x (p.stored h)
        .ok ((p.overwrite h items).1, answer)
  | .expose name => p.attempt do
    let h ← p.find name
    let (p, h) := p.ownNamed name h
    .ok (p, .items (p.stored h))
  | .read name query => p.attempt do
    let h ← p.find name
    .ok (p, ← query (p.view h))

/-- The answers to a list of commands, and the pool after the last one. -/
def run (p : Pool α) : List (Command α) → Pool α × List (Except Fault (Answer α))
  | [] => (p, [])
  | c :: commands =>
    let (next, answer) := p.step c
    let (last, answers) := next.run commands
    (last, answer :: answers)

end Pool

end RowMajor.Buffer
