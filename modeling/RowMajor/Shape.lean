/-!
# Shapes

A shape lists the lengths of the axes of an array, outermost first. The elements
of an array stand in row-major order: the last axis runs fastest. `Shape.offset`
sends a coordinate vector to its place in that order, and `Shape.coordinates`
lists the vectors themselves in the same order, so the two describe one
enumeration from both ends.

The lengths are integers. Of an array it is only asked that their product is the
number of its elements, so two negative lengths can make up for each other. Such an
array has elements and no rows, because no coordinate lies below a negative length.
Shapes without negative lengths are called natural.
-/

namespace RowMajor

/-- The axis lengths of an array, outermost first. -/
abbrev Shape := List Int

namespace Shape

/-- No axis has a negative length. -/
def Natural (s : Shape) : Prop :=
  ∀ d ∈ s, 0 ≤ d

instance (s : Shape) : Decidable s.Natural :=
  inferInstanceAs (Decidable (∀ d ∈ s, 0 ≤ d))

@[simp] theorem natural_nil : Natural [] := by
  simp [Natural]

@[simp] theorem natural_cons (d : Int) (s : Shape) : Natural (d :: s) ↔ 0 ≤ d ∧ Natural s := by
  simp [Natural]

/-- The shape with the given natural numbers as its lengths. -/
def ofNats (lengths : List Nat) : Shape :=
  lengths.map Int.ofNat

/-- The product of the axis lengths. -/
def size : Shape → Int
  | [] => 1
  | d :: s => d * size s

@[simp] theorem size_nil : size [] = 1 := rfl

@[simp] theorem size_cons (d : Int) (s : Shape) : size (d :: s) = d * size s := rfl

@[simp] theorem size_append (s t : Shape) : size (s ++ t) = size s * size t := by
  induction s with
  | nil => simp
  | cons d s ih => simp [ih, Int.mul_assoc]

theorem size_nonneg {s : Shape} (h : s.Natural) : 0 ≤ size s := by
  induction s with
  | nil => decide
  | cons d s ih =>
    rw [natural_cons] at h
    exact Int.mul_nonneg h.1 (ih h.2)

/-- The number of elements that an array of the shape has room for. -/
def volume (s : Shape) : Nat :=
  (size s).toNat

/-- How far apart neighbours along each axis stand in row-major order. -/
def strides : Shape → List Int
  | [] => []
  | _ :: s => size s :: strides s

/-- Every coordinate vector of the shape, in row-major order. -/
def coordinates : Shape → List (List Nat)
  | [] => [[]]
  | d :: s => (List.range d.toNat).flatMap fun i => (coordinates s).map (i :: ·)

/-- The number of coordinate vectors. -/
def cellCount : Shape → Nat
  | [] => 1
  | d :: s => d.toNat * cellCount s

@[simp] theorem length_coordinates (s : Shape) : (coordinates s).length = cellCount s := by
  induction s with
  | nil => rfl
  | cons d s ih => simp [coordinates, cellCount, List.length_flatMap, ih, List.map_const']

theorem length_of_mem_coordinates {s : Shape} {index : List Nat} (h : index ∈ coordinates s) :
    index.length = s.length := by
  induction s generalizing index with
  | nil => simp_all [coordinates]
  | cons d s ih =>
    simp only [coordinates, List.mem_flatMap, List.mem_map] at h
    obtain ⟨i, _, rest, hrest, rfl⟩ := h
    simp [ih hrest]

/-- A natural shape has room for one element at every coordinate vector. -/
theorem cellCount_eq_volume {s : Shape} (h : s.Natural) : cellCount s = volume s := by
  induction s with
  | nil => rfl
  | cons d s ih =>
    rw [natural_cons] at h
    simp only [cellCount, ih h.2, volume, size_cons, Int.toNat_mul h.1 (size_nonneg h.2)]

/-- The place of a coordinate vector in row-major order. -/
def offset : Shape → List Nat → Nat
  | _ :: s, i :: index => i * volume s + offset s index
  | _, _ => 0

/-- Whether a coordinate vector stays below the length of every axis. -/
def contains : Shape → List Nat → Bool
  | d :: s, i :: index => decide (Int.ofNat i < d) && contains s index
  | _, _ => true

/-- The shape of an array that is put together row by row, level by level. A level without rows
is an axis of length zero, whatever its length was, and nothing below it is looked at. -/
def endAtEmpty : Shape → Shape
  | [] => []
  | d :: s => if d ≤ 0 then 0 :: s else d :: endAtEmpty s

@[simp] theorem endAtEmpty_eq_self {s : Shape} (h : s.Natural) : endAtEmpty s = s := by
  induction s with
  | nil => rfl
  | cons d s ih =>
    rw [natural_cons] at h
    by_cases h0 : d ≤ 0
    · simp [endAtEmpty, Int.le_antisymm h0 h.1]
    · simp [endAtEmpty, h0, ih h.2]

/-- The number of axes in front of a cut. A negative cut counts axes from the end. -/
def cut (s : Shape) (depth : Int) : Nat :=
  if 0 ≤ depth then depth.toNat else (Int.ofNat s.length + depth).toNat

/-- The axes in front of a cut. -/
def front (s : Shape) (depth : Int) : Shape :=
  s.take (s.cut depth)

/-- The axes behind a cut. -/
def back (s : Shape) (depth : Int) : Shape :=
  s.drop (s.cut depth)

/-- A shape is written between brackets, with multiplication signs between the lengths. -/
def text (s : Shape) : String :=
  "[" ++ " × ".intercalate (s.map toString) ++ "]"

end Shape

end RowMajor
