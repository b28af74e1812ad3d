import RowMajor.Buffer.Command

/-!
# Separate lists

The same commands can be carried out with a list of its own for every buffer and no
sharing at all. `Separate.step` does so, and says what shared storage has to answer:
sharing saves copies and must never be visible.
-/

namespace RowMajor.Buffer

variable {α : Type}

/-- A list of its own under every name. -/
abbrev Separate (α : Type) := Table (List α)

namespace Separate

def find (name : String) (s : Separate α) : Except Fault (List α) :=
  match s.get? name with
  | some xs => .ok xs
  | none => .error (.unknown name)

/-- The part of a list from `start` up to `stop`. -/
def part (xs : List α) (start : Int) (stop : Option Int) : Except Fault (List α) :=
  let finish := stop.getD (Int.ofNat xs.length)
  if start < 0 ∨ finish < start ∨ Int.ofNat xs.length < finish then
    .error (.slice start stop xs.length)
  else .ok ((xs.drop start.toNat).take (finish - start).toNat)

def putSlices (xs : List α) (size : Nat) (stem : String) (starts : List Nat) (s : Separate α) :
    Separate α :=
  starts.zipIdx.foldl (fun s (start, i) =>
    s.put (stem ++ toString i) ((xs.drop start).take size)) s

def sourceItems (s : Separate α) : Source α → Except Fault (List α)
  | .items xs => .ok xs
  | .buffer name => s.find name

def edit (name : String) (change : Edit α) (s : Separate α) :
    Except Fault (Separate α × Answer α) := do
  let (items, answer) ← change (← s.find name)
  .ok (s.put name items, answer)

def attempt (s : Separate α) (result : Except Fault (Separate α × Answer α)) :
    Separate α × Except Fault (Answer α) :=
  match result with
  | .ok (s, answer) => (s, .ok answer)
  | .error fault => (s, .error fault)

def step (s : Separate α) : Command α → Separate α × Except Fault (Answer α)
  | .create target items => (s.put target items, .ok .nothing)
  | .reserve target capacity => attempt s do
    checkCapacity capacity
    .ok (s.put target [], .nothing)
  | .clone name target => attempt s do .ok (s.put target (← s.find name), .nothing)
  | .slice name target start stop => attempt s do
    .ok (s.put target (← part (← s.find name) start stop), .nothing)
  | .splitOff name target position => attempt s do
    let xs ← s.find name
    let position ← splitPosition position xs.length
    .ok ((s.put name (xs.take position)).put target (xs.drop position), .nothing)
  | .intoSlices name stem size => attempt s do
    let xs ← s.find name
    let starts ← sliceStarts size xs.length
    .ok (s.putSlices xs size.toNat stem starts, .nothing)
  | .release name => attempt s do
    let _ ← s.find name
    .ok (s.remove name, .nothing)
  | .extend name source => attempt s do
    s.edit name (Edit.extend (← s.sourceItems source))
  | .truncate name length => attempt s do
    .ok (s.put name ((← s.find name).take length.toNat), .nothing)
  | .modify name change => attempt s (s.edit name change)
  | .write name position x => attempt s (s.edit name (Edit.set position x))
  | .expose name => attempt s do .ok (s, .items (← s.find name))
  | .read name query => attempt s do .ok (s, ← query (.ofList (← s.find name)))

def run (s : Separate α) : List (Command α) → Separate α × List (Except Fault (Answer α))
  | [] => (s, [])
  | c :: commands =>
    let (next, answer) := s.step c
    let (last, answers) := next.run commands
    (last, answer :: answers)

end Separate

namespace Pool

/-- What every buffer shows. -/
def shown (p : Pool α) : Separate α :=
  p.handles.map fun (name, h) => (name, p.contents h)

end Pool

end RowMajor.Buffer
