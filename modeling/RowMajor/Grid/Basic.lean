import RowMajor.Shape

/-!
# Grids

A grid is a shape together with its elements in row-major order. Fixing some leading
coordinates singles out a cell, and cutting the elements into pieces of equal size
yields all the cells at one depth in order. Rows are the cells at depth one. A grid
without axes has a single row, which is the grid itself.

Nothing ties the number of elements to the shape in the type. `Grid.WellFormed` says
that they agree and that no axis has a negative length.
-/

namespace RowMajor

variable {α β : Type}

/-- The first `count` pieces of `size` items each. -/
def pieces (size : Nat) : Nat → List α → List (List α)
  | 0, _ => []
  | count + 1, items => items.take size :: pieces size count (items.drop size)

@[simp] theorem pieces_zero (size : Nat) (items : List α) : pieces size 0 items = [] := rfl

@[simp] theorem length_pieces (size count : Nat) (items : List α) :
    (pieces size count items).length = count := by
  induction count generalizing items with
  | zero => rfl
  | succ count ih => simp [pieces, ih]

/-- Cutting loses nothing if the pieces cover the items. -/
theorem flatten_pieces {size count : Nat} {items : List α} (h : items.length ≤ count * size) :
    (pieces size count items).flatten = items := by
  induction count generalizing items with
  | zero => simp_all
  | succ count ih =>
    rw [pieces, List.flatten_cons, ih, List.take_append_drop]
    rw [List.length_drop]
    rw [Nat.succ_mul] at h
    omega

/-- Pieces of equal length are found again after they have been put together. -/
theorem pieces_flatten {size : Nat} {parts : List (List α)} (h : ∀ p ∈ parts, p.length = size) :
    pieces size parts.length parts.flatten = parts := by
  induction parts with
  | nil => rfl
  | cons p parts ih =>
    have hp : p.length = size := h p (by simp)
    have rest := ih fun q hq => h q (by simp [hq])
    simp [pieces, hp, rest]

/-- The items over and over again. -/
def repeated (count : Nat) (items : List α) : List α :=
  if items.isEmpty then [] else (List.replicate count items).flatten

theorem repeated_eq (count : Nat) (items : List α) :
    repeated count items = (List.replicate count items).flatten := by
  cases items <;> simp [repeated]

/-- A list that is extended by copies of itself until it is there `count` times. -/
def multiplied (count : Nat) (items : List α) : List α :=
  match count with
  | 0 => []
  | more + 1 => items ++ repeated more items

theorem multiplied_eq (count : Nat) (items : List α) :
    multiplied count items = repeated count items := by
  rw [repeated_eq]
  cases count with
  | zero => rfl
  | succ more => rw [multiplied, repeated_eq, List.replicate_succ, List.flatten_cons]

theorem multiplied_one (items : List α) : multiplied 1 items = items := by
  rw [multiplied_eq, repeated_eq, List.replicate_one, List.flatten_singleton]

/-- Change the part of a list that begins at `start` and is `size` items long. -/
def changeSection (start size : Nat) (change : List α → List α) (items : List α) : List α :=
  items.take start ++ change ((items.drop start).take size) ++ items.drop (start + size)

/-- Write items over those that begin at `start`. -/
def splice (start : Nat) (new items : List α) : List α :=
  changeSection start new.length (fun _ => new) items

/-- A shape and its elements in row-major order. -/
structure Grid (α : Type) where
  shape : Shape
  items : List α
deriving DecidableEq

namespace Grid

/-- The shape accounts for all elements. -/
def Fits (a : Grid α) : Prop :=
  Int.ofNat a.items.length = a.shape.size

instance (a : Grid α) : Decidable a.Fits :=
  inferInstanceAs (Decidable (_ = _))

/-- There is one element for every coordinate vector of the shape. -/
structure WellFormed (a : Grid α) : Prop where
  natural : a.shape.Natural
  fits : a.Fits

instance (a : Grid α) : Decidable a.WellFormed :=
  decidable_of_iff (a.shape.Natural ∧ a.Fits)
    ⟨fun h => ⟨h.1, h.2⟩, fun h => ⟨h.natural, h.fits⟩⟩

/-- A grid without axes around one element. -/
def scalar (x : α) : Grid α :=
  ⟨[], [x]⟩

def vector (items : List α) : Grid α :=
  ⟨[Int.ofNat items.length], items⟩

theorem wellFormed_scalar (x : α) : (scalar x).WellFormed :=
  ⟨Shape.natural_nil, rfl⟩

theorem wellFormed_vector (items : List α) : (vector items).WellFormed :=
  ⟨by simp [vector], by simp [Fits, vector]⟩

def map (f : α → β) (a : Grid α) : Grid β :=
  ⟨a.shape, a.items.map f⟩

@[simp] theorem shape_map (f : α → β) (a : Grid α) : (a.map f).shape = a.shape := rfl

@[simp] theorem items_map (f : α → β) (a : Grid α) : (a.map f).items = a.items.map f := rfl

def rank (a : Grid α) : Nat :=
  a.shape.length

/-- The length of the leading axis; a grid without axes counts as one row. -/
def rowCount (a : Grid α) : Int :=
  a.shape.headD 1

def rowShape (a : Grid α) : Shape :=
  a.shape.tail

/-- The number of elements in a row. -/
def rowSize (a : Grid α) : Nat :=
  a.rowShape.volume

/-- The cells that remain when the first `depth` coordinates are fixed, in order. -/
def cells (depth : Nat) (a : Grid α) : List (Grid α) :=
  let cellShape : Shape := a.shape.drop depth
  let frame : Shape := a.shape.take depth
  (pieces cellShape.volume frame.cellCount a.items).map (⟨cellShape, ·⟩)

def rows (a : Grid α) : List (Grid α) :=
  a.cells 1

/-- As many rows as are asked for, from the given one on. -/
def rowsFrom (start count : Nat) (a : Grid α) : List (Grid α) :=
  (pieces a.rowSize count (a.items.drop (start * a.rowSize))).map (⟨a.rowShape, ·⟩)

/-- The same elements under another shape. -/
def withShape (shape : Shape) (a : Grid α) : Grid α :=
  ⟨shape, a.items⟩

/-- The element at a coordinate vector. -/
def get? (a : Grid α) (index : List Nat) : Option α :=
  if index.length = a.shape.length ∧ a.shape.contains index then
    a.items[a.shape.offset index]?
  else none

end Grid

end RowMajor
