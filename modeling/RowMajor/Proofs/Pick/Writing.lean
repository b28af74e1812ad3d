import RowMajor.Proofs.Grid.Rows
import RowMajor.Proofs.Operations.Pick

/-!
# Cells written over one after another

Cells of one depth at different places do not overlap, so what is written at one place is not
lost when others are written, and nothing changes that does not lie below one of the places.
Both are stated for one write by coordinates and carried to a list of writes by induction.
-/

namespace RowMajor.Grid

variable {α : Type} {a : Grid α} {s : Shape} {width : Nat} {place index : List Nat}
  {places : List (List Nat)} {cell : List α} {cells : List (List α)}

/-- Write a cell over the one below some coordinates. -/
def writeCell (place : List Nat) (cell : List α) (a : Grid α) : Grid α :=
  ⟨a.shape, splice (a.shape.offset place) cell a.items⟩

@[simp] theorem shape_writeCell (place : List Nat) (cell : List α) (a : Grid α) :
    (a.writeCell place cell).shape = a.shape := rfl

/-- The items of a cell below a place at the given depth. -/
structure FitsAt (s : Shape) (width : Nat) (place : List Nat) (cell : List α) : Prop where
  lies : LiesIn s width place
  length : cell.length = Shape.cellCount (s.drop width)

theorem FitsAt.room (fits : FitsAt a.shape width place cell) (h : a.WellFormed) :
    a.shape.offset place + cell.length ≤ a.items.length := by
  refine fits.lies.room h.holds_trivial (Nat.le_of_eq ?_)
  rw [fits.length, Shape.cellCount_eq_volume (h.natural.drop width)]

theorem WellFormed.writeCell (h : a.WellFormed) (fits : FitsAt a.shape width place cell) :
    (a.writeCell place cell).WellFormed :=
  wellFormed_iff.mpr ⟨h.natural, (length_splice (fits.room h)).trans h.length_eq⟩

/-- Below the place stands what was written. -/
theorem get?_writeCell_below (h : a.WellFormed) (fits : FitsAt a.shape width place cell) :
    (a.writeCell place cell).get? (place ++ index) =
      (Grid.mk (a.shape.drop width) cell).get? index := by
  have depth : place.length = width := fits.lies.length
  have rank : place.length ≤ a.shape.length := depth ▸ fits.lies.rank
  have whole : place ++ index ∈ Shape.coordinates a.shape ↔
      index ∈ Shape.coordinates (a.shape.drop place.length) :=
    Shape.append_mem_coordinates rank fits.lies.within
  rw [depth] at whole
  by_cases mem : index ∈ Shape.coordinates (a.shape.drop width)
  · have below := Shape.offset_lt (h.natural.drop width) mem
    rw [← fits.length] at below
    rw [get?_of_mem (a := a.writeCell place cell) (whole.mpr mem),
      get?_of_mem (a := Grid.mk (a.shape.drop width) cell) mem, shape_writeCell,
      Shape.offset_append rank, depth]
    exact getElem?_splice_inside (fits.room h) below
  · rw [get?_of_not_mem (a := Grid.mk (a.shape.drop width) cell) mem]
    exact get?_of_not_mem fun inside => mem (whole.mp inside)

/-- Everywhere else nothing has changed. -/
theorem get?_writeCell_of_not_prefix (h : a.WellFormed) (fits : FitsAt a.shape width place cell)
    (mem : index ∈ Shape.coordinates a.shape) (apart : ¬ place <+: index) :
    (a.writeCell place cell).get? index = a.get? index := by
  have depth : place.length = width := fits.lies.length
  obtain ⟨other, rest, rfl, otherDepth, within, below⟩ :=
    Shape.exists_cell_of_mem_coordinates mem fits.lies.rank
  have rank : other.length ≤ a.shape.length := otherDepth ▸ fits.lies.rank
  have differ : place ≠ other := by
    rintro rfl
    exact apart (List.prefix_append ..)
  have disjoint := Shape.offset_add_cellCount_le_of_ne h.natural (depth ▸ fits.lies.rank)
    (depth.trans otherDepth.symm) fits.lies.within within differ
  have inCell := Shape.offset_lt (h.natural.drop width) below
  rw [depth, ← fits.length] at disjoint
  rw [← fits.length] at inCell
  rw [get?_of_mem (a := a.writeCell place cell) mem, get?_of_mem mem, shape_writeCell,
    Shape.offset_append rank, otherDepth]
  exact getElem?_splice_outside (fits.room h) (by omega)

/-- The cell at the place is the one that was written. -/
theorem cellAt_writeCell (h : a.WellFormed) (fits : FitsAt a.shape width place cell) :
    (a.writeCell place cell).cellAt place = ⟨a.shape.drop width, cell⟩ := by
  have rank : place.length ≤ (a.writeCell place cell).rank := fits.lies.length ▸ fits.lies.rank
  have written := h.writeCell fits
  have whole := written.cellAt rank fits.lies.within
  have new : (Grid.mk (a.shape.drop width) cell).WellFormed :=
    wellFormed_iff.mpr ⟨h.natural.drop width, fits.length⟩
  refine whole.ext new ?_ fun index _ => ?_
  · rw [shape_cellAt, fits.lies.length]
    rfl
  · rw [get?_cellAt written.natural rank fits.lies.within, get?_writeCell_below h fits]

/-- Writing the cell that is there changes nothing. -/
theorem writeCell_cellAt (h : a.WellFormed) (lies : LiesIn a.shape width place) :
    a.writeCell place (a.cellAt place).items = a := by
  have room := Shape.offset_add_cellCount_le h.natural (lies.length ▸ lies.rank) lies.within
  rw [← h.length_eq, Shape.cellCount_eq_volume (h.natural.drop _)] at room
  exact congrArg (Grid.mk a.shape) (splice_same _ _ _ room)

theorem writeCells_cons (a : Grid α) : a.writeCells (place :: places) (cell :: cells) =
    (a.writeCell place cell).writeCells places cells := rfl

theorem WellFormed.writeCells (h : a.WellFormed)
    (each : List.Forall₂ (FitsAt a.shape width) places cells) :
    (a.writeCells places cells).WellFormed := by
  generalize shape : a.shape = s at each
  induction each generalizing a with
  | nil => exact h
  | cons fits _ ih =>
      subst shape
      exact ih (h.writeCell fits) rfl

/-- Nothing has changed but below the places. -/
theorem get?_writeCells_of_not_prefix (h : a.WellFormed)
    (each : List.Forall₂ (FitsAt a.shape width) places cells)
    (mem : index ∈ Shape.coordinates a.shape) (apart : ∀ place ∈ places, ¬ place <+: index) :
    (a.writeCells places cells).get? index = a.get? index := by
  generalize shape : a.shape = s at each
  induction each generalizing a with
  | nil => rfl
  | cons fits _ ih =>
      subst shape
      rw [writeCells_cons, ih (h.writeCell fits) mem
        (fun place there => apart place (List.mem_cons_of_mem _ there)) rfl]
      exact get?_writeCell_of_not_prefix h fits mem (apart _ List.mem_cons_self)

/-- A cell is determined by the elements below its place. -/
theorem cellAt_congr {b : Grid α} (ha : a.WellFormed) (hb : b.WellFormed)
    (same : a.shape = b.shape) (lies : LiesIn a.shape width place)
    (agree : ∀ index, place ++ index ∈ Shape.coordinates a.shape →
      a.get? (place ++ index) = b.get? (place ++ index)) :
    a.cellAt place = b.cellAt place := by
  have rank : place.length ≤ a.rank := lies.length ▸ lies.rank
  have rankB : place.length ≤ b.rank := by rwa [Grid.rank, ← same]
  have withinB : b.shape.contains place = true := same ▸ lies.within
  refine (ha.cellAt rank lies.within).ext (hb.cellAt rankB withinB) ?_ fun index mem => ?_
  · rw [shape_cellAt, shape_cellAt, same]
  · rw [get?_cellAt ha.natural rank lies.within, get?_cellAt hb.natural rankB withinB]
    exact agree index ((Shape.append_mem_coordinates rank lies.within).mpr mem)

/-- The cells that were written at different places are all there in the end. -/
theorem cellAt_writeCells (h : a.WellFormed)
    (each : List.Forall₂ (FitsAt a.shape width) places cells) (nodup : places.Nodup) :
    List.Forall₂ (fun place cell =>
      (a.writeCells places cells).cellAt place = ⟨a.shape.drop width, cell⟩) places cells := by
  generalize shape : a.shape = s at each
  induction each generalizing a with
  | nil => exact .nil
  | @cons place cell places cells fits each ih =>
      subst shape
      obtain ⟨new, nodup⟩ := List.nodup_cons.mp nodup
      have written := h.writeCell fits
      refine .cons ?_ (ih written nodup rfl)
      rw [writeCells_cons, ← cellAt_writeCell h fits]
      -- The writes that follow do not reach the first cell: their places are as deep as its own.
      refine cellAt_congr (written.writeCells each) written rfl fits.lies fun index mem => ?_
      refine get?_writeCells_of_not_prefix written each mem fun other there beside => new ?_
      obtain ⟨_, -, others⟩ := exists_of_forall₂_right each.flip there
      have depth : other.length = place.length := others.lies.length.trans fits.lies.length.symm
      have within := List.prefix_of_prefix_length_le beside (List.prefix_append place index)
        (Nat.le_of_eq depth)
      exact within.eq_of_length depth ▸ there

/-- Writing the cells that are there changes nothing. -/
theorem writeCells_cellAt (h : a.WellFormed) (each : ∀ place ∈ places, LiesIn a.shape width place) :
    a.writeCells places (places.map fun place => (a.cellAt place).items) = a := by
  induction places with
  | nil => rfl
  | cons place places ih =>
      rw [List.map_cons, writeCells_cons, writeCell_cellAt h (each place List.mem_cons_self)]
      exact ih fun other there => each other (List.mem_cons_of_mem _ there)

end RowMajor.Grid
