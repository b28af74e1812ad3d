import RowMajor.Operand.Integers

/-!
# Windows

A window is a box of fixed size somewhere inside an array. The windows of an array,
one for every corner at which the box still fits, form an array of their own: its
leading axes run over the corners and the axes below them over the inside of the box.
A negative size is counted back from the longest window that fits.
-/

namespace RowMajor

variable {α : Type}

namespace Shape

/-- The corners at which a box of the given size fits into the shape. -/
def corners (s window : Shape) : Shape :=
  s.zipWith (fun d w => d + 1 - w) window

/-- The components of vectors one after the other, as vectors of the given length. -/
def regroup (length : Nat) (vectors : List (List Nat)) : List (List Nat) :=
  pieces length (vectors.flatten.length / length) vectors.flatten

/-- Vectors that have the given length already stay as they are. -/
theorem regroup_eq_self {length : Nat} {vectors : List (List Nat)} (pos : 0 < length)
    (h : ∀ v ∈ vectors, v.length = length) : regroup length vectors = vectors := by
  have total : vectors.flatten.length = vectors.length * length := by
    rw [List.length_flatten, List.map_congr_left h, List.map_const', List.sum_replicate_nat]
  rw [regroup, total, Nat.mul_div_cancel _ pos, pieces_flatten h]

theorem regroup_coordinates {length : Nat} {s : Shape} (pos : 0 < length)
    (h : s.length = length) : regroup length (coordinates s) = coordinates s :=
  regroup_eq_self pos fun _ hv => (length_of_mem_coordinates hv).trans h

/-- For every corner in order and every place in the window in order, where in the array that
place lies. Without corners, or without places, there are none, but an array without axes
has one place in any case. A window is expected to have the rank of the array; the
components of the coordinates are read as vectors of that rank. -/
def windowOffsets (s window : Shape) : List Nat :=
  if s.isEmpty then [0]
  else if (s.corners window).any (· ≤ 0) || window.any (· ≤ 0) then []
  else
    let places := regroup s.length (coordinates window)
    (regroup s.length (coordinates (s.corners window))).flatMap fun corner =>
      places.map fun place => s.offset (corner.zipWith (· + ·) place)

/-- The window sizes along the leading axes, negative ones counted from the longest. -/
def resolveWindow : Shape → List Int → Except Error Shape
  | d :: s, size :: sizes =>
    if d < Int.ofNat size.natAbs then .error (.shape (.windowSize size d))
    else do
      let rest ← resolveWindow s sizes
      .ok ((if 0 ≤ size then size else d + 1 + size) :: rest)
  | _, _ => .ok []

/-- The window that a list of sizes asks for. None may be zero, and there may be no more of
them than axes. -/
def window (s : Shape) (sizes : List Int) : Except Error Shape :=
  if sizes.contains 0 then .error (.shape .zeroWindow)
  else if s.length < sizes.length then .error (.shape (.windowRank sizes s))
  else s.resolveWindow sizes

end Shape

namespace Grid

/-- The elements at the given places. -/
def gather (places : List Nat) (a : Grid α) : List α :=
  places.filterMap fun i => a.items[i]?

/-- All windows over the leading axes. Without sizes the grid itself is the only window. -/
def windows (kind : Kind) (sizes : List Int) (a : Grid α) : Except Error (Grid α) := do
  let window ← a.shape.window sizes
  if window.isEmpty then .ok a
  else
    let rest := a.shape.drop window.length
    fit kind ⟨Shape.corners a.shape window ++ window ++ rest,
      a.gather (a.shape.windowOffsets (window ++ rest))⟩

end Grid

def Value.windows (sizes : List Int) (v : Value) : Except Error Value := do
  .ok (.ofGrid v.form (← v.grid.windows v.kind sizes))

def windows (sizes value : Operand) : Except Error Value := do
  let v ← value.toValue
  v.windows (← sizes.asIntegers .windowSizes)

end RowMajor
