import RowMajor.Proofs.Grid.Rows

/-!
# Grids as tables

A grid can be given by saying which element stands at every coordinate vector. The cells
at one depth form such a table of the coordinate vectors that lead to them, and the rows of
these cells are the cells one step deeper. Whatever is computed cell by cell or row by row
is therefore read off at coordinates.
-/

namespace RowMajor

variable {α β : Type}

namespace Shape

variable {s t : Shape} {index place : List Nat}

/-- The coordinate vectors of a shape put together from two. -/
theorem coordinates_append (s t : Shape) :
    coordinates (s ++ t) =
      (coordinates s).flatMap fun place => (coordinates t).map (place ++ ·) := by
  induction s with
  | nil => simp [coordinates]
  | cons d s ih =>
      rw [List.cons_append, coordinates, ih, coordinates, List.flatMap_assoc]
      refine congrArg (List.flatMap · _) (funext fun i => ?_)
      rw [List.map_flatMap, List.flatMap_map]
      refine congrArg (List.flatMap · _) (funext fun place => ?_)
      rw [List.map_map]
      rfl

/-- Every coordinate vector stands at its offset. -/
theorem getElem?_coordinates (natural : s.Natural) (mem : index ∈ coordinates s) :
    (coordinates s)[s.offset index]? = some index := by
  obtain ⟨i, here⟩ := List.mem_iff_getElem?.mp mem
  have numbered : (List.range (cellCount s))[i]? = some (s.offset index) := by
    rw [← map_offset_coordinates natural, List.getElem?_map, here]
    rfl
  rw [List.getElem?_eq_some_iff] at numbered
  obtain ⟨there, same⟩ := numbered
  rw [List.getElem_range] at same
  rw [← same, here]

/-- A cell begins after all the cells before it. -/
theorem offset_eq_mul (natural : s.Natural) (rank : place.length ≤ s.length) :
    s.offset place = offset (s.take place.length) place * cellCount (s.drop place.length) := by
  induction s generalizing place with
  | nil =>
      obtain rfl := List.length_eq_zero_iff.mp (Nat.le_zero.mp rank)
      exact (Nat.zero_mul _).symm
  | cons d s ih =>
      cases place with
      | nil => exact (Nat.zero_mul _).symm
      | cons i place =>
          obtain ⟨-, natural⟩ := (natural_cons d s).mp natural
          rw [List.length_cons, List.take_succ_cons, List.drop_succ_cons, offset, offset,
            ih natural (Nat.le_of_succ_le_succ rank), Nat.add_mul, Nat.mul_assoc,
            ← cellCount_eq_volume natural, ← cellCount_eq_volume (natural.take _),
            cellCount_take_mul_drop]

/-- Only as many axes matter as there are coordinates. -/
theorem contains_append_left (rank : place.length ≤ s.length) :
    contains (s ++ t) place = contains s place := by
  induction s generalizing place with
  | nil =>
      obtain rfl := List.length_eq_zero_iff.mp (Nat.le_zero.mp rank)
      cases t <;> rfl
  | cons d s ih =>
      cases place with
      | nil => rfl
      | cons i place =>
          rw [List.cons_append, contains, contains, ih (Nat.le_of_succ_le_succ rank)]

section

variable {depth : Nat} (mem : place ∈ coordinates (s.take depth))
include mem

theorem length_le_of_mem_take : place.length ≤ s.length := by
  rw [length_of_mem_coordinates mem]
  exact List.length_take_le' depth s

theorem contains_of_mem_take : s.contains place = true := by
  obtain ⟨length, within⟩ := mem_coordinates_iff.mp mem
  rw [← List.take_append_drop depth s, contains_append_left (Nat.le_of_eq length)]
  exact within

theorem take_length_of_mem_take : s.take place.length = s.take depth := by
  rw [length_of_mem_coordinates mem, List.length_take, ← List.take_eq_take_min]

theorem drop_length_of_mem_take : s.drop place.length = s.drop depth := by
  rw [length_of_mem_coordinates mem, List.length_take, ← List.drop_eq_drop_min]

end

/-- The coordinates of the first of two shapes put together lead through its axes. -/
theorem mem_take_append (t : Shape) (mem : place ∈ coordinates s) :
    place ∈ coordinates ((s ++ t).take s.length) := by
  rwa [List.take_left]

end Shape

namespace Grid

variable {a : Grid α} {s : Shape} {f : List Nat → α} {index place : List Nat} {depth : Nat}

/-- The grid of a shape with the given element at every coordinate vector. -/
def tabulate (s : Shape) (f : List Nat → α) : Grid α :=
  ⟨s, s.coordinates.map f⟩

@[simp] theorem shape_tabulate (s : Shape) (f : List Nat → α) : (tabulate s f).shape = s := rfl

theorem wellFormed_tabulate (natural : s.Natural) (f : List Nat → α) :
    (tabulate s f).WellFormed :=
  wellFormed_iff.mpr ⟨natural, by rw [tabulate, List.length_map, Shape.length_coordinates]⟩

theorem get?_tabulate (natural : s.Natural) (mem : index ∈ s.coordinates) :
    (tabulate s f).get? index = some (f index) := by
  rw [get?_of_mem (a := tabulate s f) mem, tabulate, List.getElem?_map,
    Shape.getElem?_coordinates natural mem]
  rfl

theorem map_tabulate (g : α → β) (s : Shape) (f : List Nat → α) :
    (tabulate s f).map g = tabulate s fun index => g (f index) :=
  congrArg (Grid.mk s) (List.map_map)

theorem tabulate_const (s : Shape) (x : α) :
    tabulate s (fun _ => x) = ⟨s, List.replicate (Shape.cellCount s) x⟩ := by
  rw [tabulate, List.map_const', Shape.length_coordinates]

/-- The cells at one depth stand in the order of the coordinates that lead to them. -/
theorem cells_eq_map (natural : a.shape.Natural) (depth : Nat) :
    a.cells depth = (Shape.coordinates (a.shape.take depth)).map fun place => a.cellAt place := by
  rw [cells, pieces_eq_map, ← Shape.map_offset_coordinates (natural.take depth), List.map_map,
    List.map_map]
  refine List.map_congr_left fun place mem => ?_
  rw [cellAt, Shape.offset_eq_mul natural (Shape.length_le_of_mem_take mem),
    Shape.take_length_of_mem_take mem, Shape.drop_length_of_mem_take mem,
    Shape.cellCount_eq_volume (natural.drop depth)]
  rfl

/-- What belongs to the coordinates of a frame one by one is found there, if it is put together. -/
theorem forall_cellAt_of_forall₂ {frame : Shape} {cells : List (Grid α)}
    {belongs : List Nat → Grid α → Prop} (natural : frame.Natural) (naturalCell : s.Natural)
    (all : ∀ c ∈ cells, c.WellFormed ∧ c.shape = s)
    (each : List.Forall₂ belongs frame.coordinates cells) :
    ∀ place ∈ frame.coordinates,
      belongs place ((Grid.mk (frame ++ s) (cells.flatMap (·.items))).cellAt place) := by
  have count : cells.length = frame.cellCount := by
    rw [← each.length_eq, Shape.length_coordinates]
  have found := cells_mk_flatMap frame all count
  rw [cells_eq_map (a := Grid.mk (frame ++ s) _) (natural.append naturalCell), List.take_left]
    at found
  rwa [← found, List.forall₂_map_right_iff, List.forall₂_same] at each

/-- The rows of the cells at one depth are the cells at the next. -/
theorem flatMap_rows_cells (h : a.WellFormed) (depth : Nat) :
    (a.cells depth).flatMap rows = a.cells (depth + 1) := by
  rw [cells_eq_map h.natural, cells_eq_map h.natural, List.take_add, Shape.coordinates_append,
    List.map_flatMap, List.flatMap_map]
  refine List.flatMap_congr fun place mem => ?_
  have rank : place.length ≤ a.rank := Shape.length_le_of_mem_take mem
  have within := Shape.contains_of_mem_take mem
  have cell := h.cellAt rank within
  rw [rows, cells_eq_map cell.natural, List.map_map, shape_cellAt,
    Shape.drop_length_of_mem_take mem]
  refine List.map_congr_left fun rest memRest => ?_
  rw [← Shape.drop_length_of_mem_take mem] at memRest
  exact cellAt_cellAt h rank within (Shape.length_le_of_mem_take memRest)
    (Shape.contains_of_mem_take memRest)

/-- The elements are where they were, seen from the last axis, and everywhere else in the target
shape is the fill element. -/
def padTo (target : Shape) (x : α) (a : Grid α) : Grid α :=
  let stretched := a.withShape (List.replicate (target.length - a.rank) 1 ++ a.shape)
  tabulate target fun index => (stretched.get? index).getD x

@[simp] theorem shape_padTo (target : Shape) (x : α) (a : Grid α) :
    (a.padTo target x).shape = target := rfl

theorem wellFormed_padTo {target : Shape} (natural : target.Natural) (x : α) (a : Grid α) :
    (a.padTo target x).WellFormed :=
  wellFormed_tabulate natural _

/-- Outside of the grid is the fill element. -/
theorem get?_padTo_of_not_mem {target : Shape} {x : α} (natural : target.Natural)
    (rank : target.length = a.rank) (mem : index ∈ target.coordinates)
    (outside : index ∉ a.shape.coordinates) : (a.padTo target x).get? index = some x := by
  rw [padTo, get?_tabulate natural mem, rank, Nat.sub_self, List.replicate_zero, List.nil_append]
  show some ((a.get? index).getD x) = some x
  rw [get?_of_not_mem outside, Option.getD_none]

theorem map_padTo (g : α → β) (target : Shape) (x : α) (a : Grid α) :
    (a.padTo target x).map g = (a.map g).padTo target (g x) := by
  rw [padTo, map_tabulate, padTo]
  refine congrArg (tabulate target) (funext fun index => ?_)
  rw [← Option.getD_map g, ← get?_map]
  rfl

/-- A grid resized to at least as many axes as it has. -/
theorem resize_eq_ok {target : Shape} (kind : Kind) (x : α) (h : a.WellFormed)
    (natural : target.Natural) (rank : a.rank ≤ target.length) :
    a.resize kind target x = .ok (a.padTo target x) := by
  have ones := (Shape.natural_replicate_one (target.length - a.rank)).append h.natural
  have stretched := (h.holds_trivial.withShape ones (Shape.cellCount_ones_append ..)).wellFormed
  rw [resize, if_neg (Nat.not_lt.mpr rank), padTo]
  generalize a.withShape (List.replicate (target.length - a.rank) 1 ++ a.shape) = b at *
  have padded := wellFormed_tabulate natural fun index => (b.get? index).getD x
  show (if b.shape = target then .ok b else
    fit kind (tabulate target fun index => (b.get? index).getD x)) = _
  split
  · rename_i same
    refine congrArg Except.ok (stretched.ext padded same fun index mem => ?_)
    obtain ⟨y, here⟩ := stretched.exists_get? mem
    rw [get?_tabulate natural (same ▸ mem), here, Option.getD_some]
  · exact fit_eq_ok padded.fits

end Grid

end RowMajor
