import Mathlib.Algebra.Group.Int.Defs
import Mathlib.Algebra.Group.Nat.Defs
import Mathlib.Data.List.Nodup
import RowMajor.Proofs.Grid.Cells

/-!
# Reading grids by coordinates

Row-major order enumerates the coordinate vectors of a natural shape without gaps and without
repetition, so a well-formed grid is determined by its shape and by the element at every
coordinate vector. `Grid.cellAt` singles out the cell below some leading coordinates; rows
are the cells below one coordinate, and stacking rows gives a grid that has just these rows.

Statements about operations are made for coordinate vectors of the result. How the elements
lie one behind another is dealt with here once.
-/

namespace RowMajor

variable {α β : Type}

/-- Positions in so many pieces of equal length, piece by piece. -/
theorem range_mul (count size : Nat) :
    List.range (count * size) =
      (List.range count).flatMap fun i => (List.range size).map (i * size + ·) := by
  induction count with
  | zero => rw [Nat.zero_mul, List.range_zero, List.flatMap_nil]
  | succ count ih =>
      rw [Nat.succ_mul, List.range_add, ih, List.range_succ, List.flatMap_append,
        List.flatMap_singleton]

namespace Shape

variable {s : Shape} {d : Int} {i : Nat} {index place other : List Nat}

theorem cons_mem_coordinates :
    i :: index ∈ coordinates (d :: s) ↔ i < d.toNat ∧ index ∈ coordinates s := by
  simp [coordinates]

theorem mem_coordinates_cons :
    index ∈ coordinates (d :: s) ↔
      ∃ i rest, index = i :: rest ∧ i < d.toNat ∧ rest ∈ coordinates s := by
  simp only [coordinates, List.mem_flatMap, List.mem_map, List.mem_range]
  constructor
  · rintro ⟨i, before, rest, below, rfl⟩
    exact ⟨i, rest, rfl, before, below⟩
  · rintro ⟨i, rest, rfl, before, below⟩
    exact ⟨i, before, rest, below, rfl⟩

theorem contains_cons :
    contains (d :: s) (i :: index) = true ↔ i < d.toNat ∧ s.contains index = true := by
  rw [contains, Bool.and_eq_true, decide_eq_true_eq, Int.ofNat_eq_natCast, Int.lt_toNat]

/-- The coordinate vectors of a shape are those that stay within its axes. -/
theorem mem_coordinates_iff :
    index ∈ coordinates s ↔ index.length = s.length ∧ s.contains index = true := by
  induction s generalizing index with
  | nil =>
      rw [coordinates, List.mem_singleton, List.length_nil, List.length_eq_zero_iff]
      constructor
      · rintro rfl
        exact ⟨rfl, rfl⟩
      · exact And.left
  | cons d s ih =>
      cases index with
      | nil =>
          constructor
          · intro mem
            obtain ⟨i, rest, absurd, -⟩ := mem_coordinates_cons.mp mem
            cases absurd
          · rintro ⟨length, -⟩
            cases length
      | cons i index =>
          rw [cons_mem_coordinates, ih, contains_cons, List.length_cons, List.length_cons,
            Nat.add_right_cancel_iff, and_left_comm]

/-- The coordinate vectors stand in row-major order. -/
theorem map_offset_coordinates (natural : s.Natural) :
    (coordinates s).map (offset s) = List.range (cellCount s) := by
  induction s with
  | nil => rfl
  | cons d s ih =>
      obtain ⟨-, natural⟩ := (natural_cons d s).mp natural
      have row (i : Nat) : ((coordinates s).map (i :: ·)).map (offset (d :: s)) =
          (List.range (cellCount s)).map (i * cellCount s + ·) := by
        rw [← ih natural, List.map_map, List.map_map, cellCount_eq_volume natural]
        rfl
      rw [coordinates, List.map_flatMap, cellCount, range_mul]
      exact congrArg (List.flatMap · _) (funext row)

theorem offset_lt (natural : s.Natural) (mem : index ∈ coordinates s) :
    s.offset index < cellCount s := by
  rw [← List.mem_range, ← map_offset_coordinates natural]
  exact List.mem_map_of_mem mem

/-- Every position belongs to a coordinate vector. -/
theorem exists_offset (natural : s.Natural) (h : i < cellCount s) :
    ∃ index ∈ coordinates s, s.offset index = i := by
  rw [← List.mem_range, ← map_offset_coordinates natural] at h
  exact List.mem_map.mp h

theorem offset_nil (s : Shape) : s.offset [] = 0 := by
  cases s <;> rfl

theorem contains_append (rank : place.length ≤ s.length) :
    s.contains (place ++ index) = true ↔
      s.contains place = true ∧ contains (s.drop place.length) index = true := by
  induction s generalizing place with
  | nil =>
      obtain rfl := List.length_eq_zero_iff.mp (Nat.le_zero.mp rank)
      exact ⟨fun within => ⟨rfl, within⟩, And.right⟩
  | cons d s ih =>
      cases place with
      | nil => exact ⟨fun within => ⟨rfl, within⟩, And.right⟩
      | cons i place =>
          rw [List.cons_append, contains_cons, contains_cons, ih (Nat.le_of_succ_le_succ rank),
            and_assoc]
          rfl

/-- What leads from a place to an element are the coordinates of the element in the cell. -/
theorem append_mem_coordinates (rank : place.length ≤ s.length)
    (within : s.contains place = true) :
    place ++ index ∈ coordinates s ↔ index ∈ coordinates (s.drop place.length) := by
  rw [mem_coordinates_iff, mem_coordinates_iff, contains_append rank, List.length_append,
    List.length_drop, and_iff_right within]
  have lengths : place.length + index.length = s.length ↔
      index.length = s.length - place.length := by omega
  rw [lengths]

/-- Coordinates lead through a cell at every depth. -/
theorem exists_cell_of_mem_coordinates {width : Nat} (mem : index ∈ coordinates s)
    (rank : width ≤ s.length) :
    ∃ place rest, index = place ++ rest ∧ place.length = width ∧ s.contains place = true ∧
      rest ∈ coordinates (s.drop width) := by
  obtain ⟨length, within⟩ := mem_coordinates_iff.mp mem
  have depth : (index.take width).length = width := by
    rw [List.length_take, length]
    exact Nat.min_eq_left rank
  rw [← List.take_append_drop width index] at within mem
  obtain ⟨front, -⟩ := (contains_append (depth.symm ▸ rank)).mp within
  have rest := (append_mem_coordinates (depth.symm ▸ rank) front).mp mem
  rw [depth] at rest
  exact ⟨_, _, (List.take_append_drop width index).symm, depth, front, rest⟩

theorem offset_append (rank : place.length ≤ s.length) :
    s.offset (place ++ index) = s.offset place + offset (s.drop place.length) index := by
  induction s generalizing place with
  | nil =>
      obtain rfl := List.length_eq_zero_iff.mp (Nat.le_zero.mp rank)
      exact (Nat.zero_add _).symm
  | cons d s ih =>
      cases place with
      | nil => exact (Nat.zero_add _).symm
      | cons i place =>
          rw [List.cons_append, offset, offset, ih (Nat.le_of_succ_le_succ rank), Nat.add_assoc]
          rfl

/-- Cells at the same depth do not overlap. -/
theorem offset_add_cellCount_le_of_ne (natural : s.Natural) (rank : place.length ≤ s.length)
    (same : place.length = other.length) (hp : s.contains place = true)
    (ho : s.contains other = true) (apart : place ≠ other) :
    s.offset place + cellCount (s.drop place.length) ≤ s.offset other ∨
      s.offset other + cellCount (s.drop place.length) ≤ s.offset place := by
  induction s generalizing place other with
  | nil =>
      obtain rfl := List.length_eq_zero_iff.mp (Nat.le_zero.mp rank)
      obtain rfl := List.length_eq_zero_iff.mp same.symm
      exact absurd rfl apart
  | cons d s ih =>
      match place, other with
      | [], [] => exact absurd rfl apart
      | i :: place, j :: other =>
          obtain ⟨-, natural⟩ := (natural_cons d s).mp natural
          obtain ⟨-, below⟩ := contains_cons.mp hp
          obtain ⟨-, otherBelow⟩ := contains_cons.mp ho
          have width : place.length = other.length := Nat.succ.inj same
          have rank : place.length ≤ s.length := Nat.le_of_succ_le_succ rank
          have ends := offset_add_cellCount_le natural rank below
          have otherEnds := offset_add_cellCount_le natural (width ▸ rank) otherBelow
          rw [← width] at otherEnds
          simp only [offset, List.length_cons, List.drop_succ_cons, ← cellCount_eq_volume natural]
          rcases Nat.lt_trichotomy i j with before | equal | after
          · have rows : (i + 1) * cellCount s ≤ j * cellCount s := Nat.mul_le_mul_right _ before
            rw [Nat.succ_mul] at rows
            omega
          · have differ : place ≠ other := fun rest => apart (equal ▸ rest ▸ rfl)
            have inRow := ih natural rank width below otherBelow differ
            rw [equal]
            omega
          · have rows : (j + 1) * cellCount s ≤ i * cellCount s := Nat.mul_le_mul_right _ after
            rw [Nat.succ_mul] at rows
            omega

end Shape

namespace Grid

variable {a b : Grid α} {i : Nat} {index place : List Nat}

theorem get?_of_mem (mem : index ∈ Shape.coordinates a.shape) :
    a.get? index = a.items[a.shape.offset index]? :=
  if_pos (Shape.mem_coordinates_iff.mp mem)

theorem get?_of_not_mem (outside : index ∉ Shape.coordinates a.shape) : a.get? index = none :=
  if_neg fun within => outside (Shape.mem_coordinates_iff.mpr within)

/-- Elements are only found at coordinate vectors. -/
theorem mem_coordinates_of_get? {x : α} (found : a.get? index = some x) :
    index ∈ Shape.coordinates a.shape := by
  by_contra outside
  rw [get?_of_not_mem outside] at found
  cases found

theorem map_id (a : Grid α) : a.map id = a :=
  congrArg (Grid.mk a.shape) (List.map_id a.items)

theorem get?_map (f : α → β) (a : Grid α) (index : List Nat) :
    (a.map f).get? index = (a.get? index).map f := by
  rw [get?, get?, shape_map, items_map]
  split
  · exact List.getElem?_map
  · rfl

/-- There is an element at every coordinate vector. -/
theorem WellFormed.exists_get? (h : a.WellFormed) (mem : index ∈ Shape.coordinates a.shape) :
    ∃ x, a.get? index = some x := by
  have there : a.shape.offset index < a.items.length :=
    Nat.lt_of_lt_of_eq (Shape.offset_lt h.natural mem) h.length_eq.symm
  exact ⟨_, (get?_of_mem mem).trans (List.getElem?_eq_getElem there)⟩

/-- No axis is longer than there are elements, if there are any. -/
theorem WellFormed.axis_le {index : List Nat} (h : a.WellFormed) (small : a.items.length ≤ 2 ^ 53)
    (mem : index ∈ Shape.coordinates a.shape) : ∀ d ∈ a.shape, d ≤ 2 ^ 53 := by
  intro d axis
  have some : Shape.cellCount a.shape ≠ 0 := by
    rw [← Shape.length_coordinates]
    exact Nat.ne_of_gt (List.length_pos_of_mem mem)
  have count : Shape.cellCount a.shape ≤ 2 ^ 53 := h.length_eq ▸ small
  exact Int.le_trans (Shape.le_cellCount axis some) (Int.ofNat_le.mpr count)

/-- Well-formed grids are equal if they have the same shape and the same elements. -/
theorem WellFormed.ext (ha : a.WellFormed) (hb : b.WellFormed) (shape : a.shape = b.shape)
    (same : ∀ index ∈ Shape.coordinates a.shape, a.get? index = b.get? index) : a = b := by
  obtain ⟨s, items⟩ := a
  obtain ⟨t, others⟩ := b
  obtain rfl : s = t := shape
  have length : items.length = s.cellCount := ha.length_eq
  have others_length : others.length = s.cellCount := hb.length_eq
  refine congrArg (Grid.mk s) (List.ext_getElem? fun i => ?_)
  by_cases inside : i < s.cellCount
  · obtain ⟨index, mem, rfl⟩ := Shape.exists_offset ha.natural inside
    have here := same index mem
    rwa [get?_of_mem (a := ⟨s, items⟩) mem, get?_of_mem (a := ⟨s, others⟩) mem] at here
  · rw [List.getElem?_eq_none (by omega), List.getElem?_eq_none (by omega)]

/-- The element at coordinates of either sign, if they lie within the axes. -/
def at? (a : Grid α) (index : List Int) : Option α :=
  if ∀ i ∈ index, 0 ≤ i then a.get? (index.map Int.toNat) else none

@[simp] theorem at?_ofNat (a : Grid α) (index : List Nat) :
    a.at? (index.map Int.ofNat) = a.get? index := by
  have nonneg : ∀ i ∈ index.map Int.ofNat, 0 ≤ i := by
    intro i mem
    obtain ⟨n, -, rfl⟩ := List.mem_map.mp mem
    exact Int.natCast_nonneg n
  rw [at?, if_pos nonneg, List.map_map]
  exact congrArg a.get? (List.map_id index)

theorem at?_map {β : Type} (f : α → β) (a : Grid α) (index : List Int) :
    (a.map f).at? index = (a.at? index).map f := by
  rw [at?, at?]
  split
  · exact get?_map f a _
  · rfl

/-- The cell below some leading coordinates. -/
def cellAt (place : List Nat) (a : Grid α) : Grid α :=
  ⟨a.shape.drop place.length, (a.items.drop (a.shape.offset place)).take
    (Shape.volume (a.shape.drop place.length))⟩

@[simp] theorem shape_cellAt (place : List Nat) (a : Grid α) :
    (a.cellAt place).shape = a.shape.drop place.length := rfl

theorem mem_of_mem_cellAt {x : α} (mem : x ∈ (a.cellAt place).items) : x ∈ a.items :=
  List.mem_of_mem_drop (List.mem_of_mem_take mem)

theorem WellFormed.cellAt (h : a.WellFormed) (rank : place.length ≤ a.rank)
    (within : a.shape.contains place = true) : (a.cellAt place).WellFormed := by
  have natural := h.natural.drop place.length
  have room := Shape.offset_add_cellCount_le h.natural rank within
  refine wellFormed_iff.mpr ⟨natural, ?_⟩
  show ((a.items.drop _).take _).length = Shape.cellCount (a.shape.drop _)
  rw [List.length_take, List.length_drop, h.length_eq, ← Shape.cellCount_eq_volume natural]
  omega

/-- What follows the coordinates of a cell leads on inside it. -/
theorem get?_cellAt (natural : a.shape.Natural) (rank : place.length ≤ a.rank)
    (within : a.shape.contains place = true) :
    (a.cellAt place).get? index = a.get? (place ++ index) := by
  have whole : place ++ index ∈ Shape.coordinates a.shape ↔
      index ∈ Shape.coordinates (a.shape.drop place.length) :=
    Shape.append_mem_coordinates rank within
  by_cases mem : index ∈ Shape.coordinates (a.shape.drop place.length)
  · have natural := natural.drop place.length
    have below := Shape.offset_lt natural mem
    rw [get?_of_mem (a := a.cellAt place) mem, get?_of_mem (whole.mpr mem),
      Shape.offset_append rank, shape_cellAt, cellAt, ← Shape.cellCount_eq_volume natural,
      List.getElem?_take_of_lt below, List.getElem?_drop]
  · rw [get?_of_not_mem (a := a.cellAt place) mem, get?_of_not_mem fun inside =>
      mem (whole.mp inside)]

theorem cellAt_nil (h : a.WellFormed) : a.cellAt [] = a := by
  have rank : ([] : List Nat).length ≤ a.rank := Nat.zero_le _
  have within : a.shape.contains [] = true := by cases a.shape <;> rfl
  exact (h.cellAt rank within).ext h rfl fun index _ =>
    get?_cellAt h.natural rank within

/-- A cell of a cell is the cell below the longer place. -/
theorem cellAt_cellAt {rest : List Nat} (h : a.WellFormed) (rank : place.length ≤ a.rank)
    (within : a.shape.contains place = true) (rankRest : rest.length ≤ (a.cellAt place).rank)
    (withinRest : (a.cellAt place).shape.contains rest = true) :
    (a.cellAt place).cellAt rest = a.cellAt (place ++ rest) := by
  have cell := h.cellAt rank within
  have lengths : (place ++ rest).length ≤ a.rank := by
    rw [Grid.rank, shape_cellAt, List.length_drop] at rankRest
    rw [Grid.rank] at rank ⊢
    rw [List.length_append]
    omega
  have whole : a.shape.contains (place ++ rest) = true :=
    (Shape.contains_append rank).mpr ⟨within, withinRest⟩
  refine (cell.cellAt rankRest withinRest).ext (h.cellAt lengths whole) ?_ fun index _ => ?_
  · rw [shape_cellAt, shape_cellAt, shape_cellAt, List.drop_drop, List.length_append]
  · rw [get?_cellAt cell.natural rankRest withinRest, get?_cellAt h.natural rank within,
      get?_cellAt h.natural lengths whole, List.append_assoc]

end Grid

end RowMajor
