import RowMajor.Proofs.Grid.Tables

/-!
# Grids assembled from cells

A cell of one shape at every coordinate vector of a frame makes up a grid whose shape is
the frame followed by the shape of the cells. The elements of the cells are found in it below
the coordinates of the frame, and every well-formed grid is assembled from its own cells.
What works cell by cell is thereby followed through the place of a cell, however deep the
frame is.
-/

namespace RowMajor

variable {α β : Type}

/-- Elements of lists of one length, list by list. -/
theorem getElem?_flatMap_of_length {f : β → List α} {xs : List β} {size i j : Nat}
    (each : ∀ x ∈ xs, (f x).length = size) (below : j < size) :
    (xs.flatMap f)[i * size + j]? = xs[i]?.bind fun x => (f x)[j]? := by
  induction xs generalizing i with
  | nil => rfl
  | cons x xs ih =>
      have first := each x List.mem_cons_self
      rw [List.flatMap_cons]
      cases i with
      | zero =>
          rw [Nat.zero_mul, Nat.zero_add, List.getElem?_append_left (first ▸ below)]
          rfl
      | succ i =>
          have before : (i + 1) * size + j = (f x).length + (i * size + j) := by
            rw [first, Nat.succ_mul]
            omega
          rw [before, List.getElem?_append_right (Nat.le_add_right ..), Nat.add_sub_cancel_left,
            List.getElem?_cons_succ]
          exact ih fun y mem => each y (List.mem_cons_of_mem _ mem)

theorem flatMap_const (xs : List β) (items : List α) :
    (xs.flatMap fun _ => items) = (List.replicate xs.length items).flatten := by
  rw [List.flatMap_def, List.map_const']

namespace Grid

variable {frame cellShape : Shape} {cell : List Nat → Grid α} {a : Grid α}
  {place index : List Nat}

/-- The cells of a frame, one behind another. -/
def assemble (frame cellShape : Shape) (cell : List Nat → Grid α) : Grid α :=
  ⟨frame ++ cellShape, frame.coordinates.flatMap fun place => (cell place).items⟩

@[simp] theorem shape_assemble (frame cellShape : Shape) (cell : List Nat → Grid α) :
    (assemble frame cellShape cell).shape = frame ++ cellShape := rfl

/-- Cells that are the same at every place of the frame. -/
theorem assemble_congr {cell' : List Nat → Grid α}
    (same : ∀ place ∈ frame.coordinates, cell place = cell' place) :
    assemble frame cellShape cell = assemble frame cellShape cell' :=
  congrArg (Grid.mk _) (List.flatMap_congr fun place mem => congrArg items (same place mem))

section

variable (natural : frame.Natural) (naturalCell : cellShape.Natural)
  (cells : ∀ place ∈ frame.coordinates, (cell place).WellFormed ∧ (cell place).shape = cellShape)
include cells

theorem length_of_cells (mem : place ∈ frame.coordinates) :
    (cell place).items.length = cellShape.cellCount := by
  obtain ⟨h, rfl⟩ := cells place mem
  exact h.length_eq

theorem length_assemble :
    (assemble frame cellShape cell).items.length = frame.cellCount * cellShape.cellCount := by
  rw [assemble, length_flatMap_eq fun place mem => length_of_cells cells mem,
    Shape.length_coordinates]

include natural naturalCell

theorem wellFormed_assemble : (assemble frame cellShape cell).WellFormed := by
  refine wellFormed_iff.mpr ⟨natural.append naturalCell, ?_⟩
  rw [length_assemble cells, shape_assemble, Shape.cellCount_append]

/-- The element at coordinates that lead through a cell is the one in the cell. -/
theorem get?_assemble (mem : place ∈ frame.coordinates) (inCell : index ∈ cellShape.coordinates) :
    (assemble frame cellShape cell).get? (place ++ index) = (cell place).get? index := by
  have through := Shape.mem_take_append cellShape mem
  have rank := Shape.length_le_of_mem_take through
  have rest : (frame ++ cellShape).drop place.length = cellShape :=
    (Shape.drop_length_of_mem_take through).trans List.drop_left
  have front : (frame ++ cellShape).take place.length = frame :=
    (Shape.take_length_of_mem_take through).trans List.take_left
  have whole : place ++ index ∈ Shape.coordinates (frame ++ cellShape) := by
    rw [Shape.coordinates_append]
    exact List.mem_flatMap.mpr ⟨place, mem, List.mem_map_of_mem inCell⟩
  have below := Shape.offset_lt naturalCell inCell
  have shape := (cells place mem).2
  rw [get?_of_mem (a := assemble frame cellShape cell) whole, shape_assemble,
    Shape.offset_append rank, Shape.offset_eq_mul (natural.append naturalCell) rank, rest, front,
    assemble, getElem?_flatMap_of_length (fun place mem => length_of_cells cells mem) below,
    Shape.getElem?_coordinates natural mem, Option.bind_some,
    get?_of_mem (by rw [shape]; exact inCell), shape]

/-- The cell below coordinates of the frame is the one that was put there. -/
theorem cellAt_assemble (mem : place ∈ frame.coordinates) :
    (assemble frame cellShape cell).cellAt place = cell place := by
  obtain ⟨h, shape⟩ := cells place mem
  have whole := wellFormed_assemble natural naturalCell cells
  have through := Shape.mem_take_append cellShape mem
  have rank := Shape.length_le_of_mem_take through
  have within := Shape.contains_of_mem_take through
  have rest : (frame ++ cellShape).drop place.length = cellShape :=
    (Shape.drop_length_of_mem_take through).trans List.drop_left
  refine (whole.cellAt rank within).ext h (rest.trans shape.symm) fun index inCell => ?_
  rw [shape_cellAt, shape_assemble, rest] at inCell
  rw [get?_cellAt whole.natural rank within, get?_assemble natural naturalCell cells mem inCell]

end

/-- The pieces of the assembled elements are the elements of the cells. -/
theorem pieces_assemble
    (cells : ∀ place ∈ frame.coordinates, (cell place).items.length = cellShape.cellCount) :
    pieces cellShape.cellCount frame.cellCount (assemble frame cellShape cell).items =
      frame.coordinates.map fun place => (cell place).items := by
  have lengths : ∀ p ∈ frame.coordinates.map fun place => (cell place).items,
      p.length = cellShape.cellCount := by
    intro p mem
    obtain ⟨place, there, rfl⟩ := List.mem_map.mp mem
    exact cells place there
  have again := pieces_flatten lengths
  rwa [List.length_map, Shape.length_coordinates, ← List.flatMap_def] at again

/-- A grid is assembled from its cells at any depth. -/
theorem WellFormed.assemble_cellAt (h : a.WellFormed) (depth : Nat) :
    assemble (a.shape.take depth) (a.shape.drop depth) a.cellAt = a := by
  have naturalCell := h.natural.drop depth
  have items : (a.cells depth).flatMap (·.items) = a.items := by
    rw [Grid.cells, List.flatMap_map, ← Shape.cellCount_eq_volume naturalCell]
    refine (List.flatMap_id ..).trans (flatten_pieces (Nat.le_of_eq ?_))
    rw [Shape.cellCount_take_mul_drop, h.length_eq]
  rw [cells_eq_map h.natural, List.flatMap_map] at items
  rw [assemble, items, List.take_append_drop]

end Grid

end RowMajor
