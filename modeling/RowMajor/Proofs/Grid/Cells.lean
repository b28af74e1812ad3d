import Mathlib.Data.List.Basic
import RowMajor.Grid.Basic

/-!
# Cells of well-formed grids

A natural shape has as many coordinate vectors as its size says, and cutting it in two
cuts their number into two factors. The cells of a well-formed grid are therefore well
formed themselves, whatever the depth, and an axis of length zero needs no case of its own.

What is said of all elements of a grid goes with it: `Grid.Holds` joins the two, and the
lemmas about parts of grids are stated for both at once.
-/

namespace RowMajor

variable {α β : Type}

namespace Shape

variable {s t : Shape}

theorem natural_append : Natural (s ++ t) ↔ s.Natural ∧ t.Natural :=
  List.forall_mem_append

theorem Natural.append (hs : s.Natural) (ht : t.Natural) : Natural (s ++ t) :=
  natural_append.mpr ⟨hs, ht⟩

theorem Natural.take (h : s.Natural) (n : Nat) : Natural (s.take n) :=
  fun d hd => h d (List.mem_of_mem_take hd)

theorem Natural.drop (h : s.Natural) (n : Nat) : Natural (s.drop n) :=
  fun d hd => h d (List.mem_of_mem_drop hd)

theorem Natural.tail (h : s.Natural) : Natural s.tail :=
  fun d hd => h d (List.mem_of_mem_tail hd)

theorem cellCount_append (s t : Shape) : cellCount (s ++ t) = cellCount s * cellCount t := by
  induction s with
  | nil => rw [List.nil_append, cellCount, Nat.one_mul]
  | cons d s ih => rw [List.cons_append, cellCount, ih, cellCount, Nat.mul_assoc]

theorem cellCount_take_mul_drop (s : Shape) (n : Nat) :
    cellCount (s.take n) * cellCount (s.drop n) = cellCount s := by
  rw [← cellCount_append, List.take_append_drop]

theorem size_eq_cellCount (h : s.Natural) : s.size = Int.ofNat s.cellCount := by
  rw [cellCount_eq_volume h, volume]
  exact (Int.toNat_of_nonneg (size_nonneg h)).symm

theorem natural_ofNats (lengths : List Nat) : (ofNats lengths).Natural := by
  intro d hd
  obtain ⟨n, -, rfl⟩ := List.mem_map.mp hd
  exact Int.natCast_nonneg n

theorem natural_replicate_one (n : Nat) : Natural (List.replicate n 1) := by
  intro d hd
  rw [List.eq_of_mem_replicate hd]
  decide

theorem cellCount_replicate_one (n : Nat) : cellCount (List.replicate n 1) = 1 := by
  induction n with
  | zero => rfl
  | succ n ih => rw [List.replicate_succ, cellCount, ih]; rfl

/-- An axis of length zero leaves no cells. -/
theorem cellCount_eq_zero {d : Int} (mem : d ∈ s) (empty : d ≤ 0) : cellCount s = 0 := by
  induction s with
  | nil => cases mem
  | cons e s ih =>
      rw [cellCount]
      rcases List.mem_cons.mp mem with rfl | mem
      · rw [Int.toNat_of_nonpos empty, Nat.zero_mul]
      · rw [ih mem, Nat.mul_zero]

theorem exists_of_cellCount_eq_zero (none : cellCount s = 0) : ∃ d ∈ s, d ≤ 0 := by
  induction s with
  | nil => cases none
  | cons e s ih =>
      rcases Nat.mul_eq_zero.mp none with head | rest
      · exact ⟨e, List.mem_cons_self, Int.toNat_eq_zero.mp head⟩
      · obtain ⟨d, mem, empty⟩ := ih rest
        exact ⟨d, List.mem_cons_of_mem _ mem, empty⟩

/-- No axis is longer than there are cells, if there are any. -/
theorem le_cellCount {d : Int} (mem : d ∈ s) (some : cellCount s ≠ 0) :
    d ≤ Int.ofNat (cellCount s) := by
  induction s with
  | nil => cases mem
  | cons e s ih =>
      rw [cellCount] at some ⊢
      obtain ⟨head, rest⟩ := Nat.mul_ne_zero_iff.mp some
      have below : e.toNat ≤ e.toNat * cellCount s :=
        Nat.le_mul_of_pos_right _ (Nat.pos_of_ne_zero rest)
      have above : cellCount s ≤ e.toNat * cellCount s :=
        Nat.le_mul_of_pos_left _ (Nat.pos_of_ne_zero head)
      rcases List.mem_cons.mp mem with rfl | later
      · exact Int.le_trans (Int.self_le_toNat d) (Int.ofNat_le.mpr below)
      · exact Int.le_trans (ih later rest) (Int.ofNat_le.mpr above)

/-- Axes of length one in front of a shape add no cells. -/
theorem cellCount_ones_append (n : Nat) (s : Shape) :
    cellCount (List.replicate n 1 ++ s) = cellCount s := by
  rw [cellCount_append, cellCount_replicate_one, Nat.one_mul]

/-- The cell below coordinates that stay within the axes ends before the array does. -/
theorem offset_add_cellCount_le {index : List Nat} (natural : s.Natural)
    (length : index.length ≤ s.length) (within : s.contains index = true) :
    s.offset index + cellCount (s.drop index.length) ≤ cellCount s := by
  induction s generalizing index with
  | nil =>
      obtain rfl := List.length_eq_zero_iff.mp (Nat.le_zero.mp length)
      exact Nat.le_refl _
  | cons d s ih =>
      cases index with
      | nil => exact Nat.le_of_eq (Nat.zero_add _)
      | cons i index =>
          obtain ⟨-, natural⟩ := (natural_cons d s).mp natural
          obtain ⟨before, within⟩ := Bool.and_eq_true_iff.mp within
          have below : i + 1 ≤ d.toNat := by
            have := of_decide_eq_true before
            simp only [Int.ofNat_eq_natCast] at this
            omega
          rw [offset, List.length_cons, List.drop_succ_cons, cellCount,
            ← cellCount_eq_volume natural]
          calc i * cellCount s + offset s index + cellCount (s.drop index.length)
              = i * cellCount s + (offset s index + cellCount (s.drop index.length)) :=
                Nat.add_assoc ..
            _ ≤ i * cellCount s + cellCount s :=
                Nat.add_le_add_left (ih natural (Nat.le_of_succ_le_succ length) within) _
            _ = (i + 1) * cellCount s := (Nat.succ_mul ..).symm
            _ ≤ d.toNat * cellCount s := Nat.mul_le_mul_right _ below

/-- Rows counted along the leading axis, a missing one counting as a single row. -/
theorem cellCount_headD_tail (s : Shape) :
    (s.headD 1).toNat * cellCount s.tail = cellCount s := by
  cases s with
  | nil => rfl
  | cons d s => rfl

theorem cellCount_take_one (s : Shape) : cellCount (s.take 1) = (s.headD 1).toNat := by
  cases s with
  | nil => rfl
  | cons d s => exact Nat.mul_one _

end Shape

theorem pieces_map (f : α → β) (size count : Nat) (items : List α) :
    pieces size count (items.map f) = (pieces size count items).map (List.map f) := by
  induction count generalizing items with
  | zero => rfl
  | succ count ih => rw [pieces, pieces, List.map_cons, ← List.map_drop, ih, List.map_take]

theorem pieces_one (items : List α) : pieces 1 items.length items = items.map ([·]) := by
  induction items with
  | nil => rfl
  | cons x items ih =>
      rw [List.length_cons, pieces, List.map_cons, ← ih]
      rfl

/-- Where the items last, all pieces have the full size. -/
theorem length_of_mem_pieces {size count : Nat} {items p : List α}
    (enough : count * size ≤ items.length) (mem : p ∈ pieces size count items) :
    p.length = size := by
  induction count generalizing items with
  | zero => cases mem
  | succ count ih =>
      rw [Nat.succ_mul] at enough
      rcases List.mem_cons.mp mem with rfl | rest
      · rw [List.length_take]
        omega
      · refine ih ?_ rest
        rw [List.length_drop]
        omega

/-- Pieces are never longer than asked for. -/
theorem length_le_of_mem_pieces {size count : Nat} {items p : List α}
    (mem : p ∈ pieces size count items) : p.length ≤ size := by
  induction count generalizing items with
  | zero => cases mem
  | succ count ih =>
      rcases List.mem_cons.mp mem with rfl | rest
      · exact List.length_take_le ..
      · exact ih rest

/-- Lists of one length, one after the other. -/
theorem length_flatMap_eq {xs : List α} {f : α → List β} {n : Nat}
    (h : ∀ x ∈ xs, (f x).length = n) : (xs.flatMap f).length = xs.length * n := by
  rw [List.length_flatMap, List.map_congr_left h, List.map_const', List.sum_replicate_nat]

theorem mem_of_mem_pieces {size count : Nat} {items p : List α} {x : α}
    (mem : p ∈ pieces size count items) (hx : x ∈ p) : x ∈ items := by
  induction count generalizing items with
  | zero => cases mem
  | succ count ih =>
      rcases List.mem_cons.mp mem with rfl | rest
      · exact List.mem_of_mem_take hx
      · exact List.mem_of_mem_drop (ih rest)

namespace Grid

variable {a c : Grid α} {depth : Nat}

theorem wellFormed_iff :
    a.WellFormed ↔ a.shape.Natural ∧ a.items.length = a.shape.cellCount := by
  constructor
  · intro h
    refine ⟨h.natural, ?_⟩
    have fits := h.fits
    rw [Fits, Shape.size_eq_cellCount h.natural] at fits
    exact Int.ofNat_inj.mp fits
  · rintro ⟨natural, length⟩
    refine ⟨natural, ?_⟩
    rw [Fits, Shape.size_eq_cellCount natural, length]

theorem WellFormed.length_eq (h : a.WellFormed) : a.items.length = a.shape.cellCount :=
  (wellFormed_iff.mp h).2

theorem WellFormed.map (h : a.WellFormed) (f : α → β) : (a.map f).WellFormed :=
  wellFormed_iff.mpr ⟨h.natural, (List.length_map f).trans h.length_eq⟩

/-- The grid is well formed and all its elements are valid. -/
structure Holds (valid : α → Prop) (a : Grid α) : Prop where
  wellFormed : a.WellFormed
  all : ∀ x ∈ a.items, valid x

variable {valid : α → Prop}

theorem holds_mk {shape : Shape} {items : List α} (natural : shape.Natural)
    (length : items.length = shape.cellCount) (all : ∀ x ∈ items, valid x) :
    (Grid.mk shape items).Holds valid :=
  ⟨wellFormed_iff.mpr ⟨natural, length⟩, all⟩

theorem Holds.natural (h : a.Holds valid) : a.shape.Natural :=
  h.wellFormed.natural

theorem Holds.length_eq (h : a.Holds valid) : a.items.length = a.shape.cellCount :=
  h.wellFormed.length_eq

/-- Where every element is valid, nothing but the shape has to be right. -/
theorem WellFormed.holds_trivial (h : a.WellFormed) : a.Holds fun _ => True :=
  ⟨h, fun _ _ => trivial⟩

theorem holds_scalar {x : α} (hx : valid x) : (scalar x).Holds valid := by
  refine ⟨wellFormed_scalar x, fun y hy => ?_⟩
  rw [List.mem_singleton.mp hy]
  exact hx

/-- The same elements under another shape of as many cells. -/
theorem Holds.withShape {shape : Shape} (h : a.Holds valid) (natural : shape.Natural)
    (same : shape.cellCount = a.shape.cellCount) : (a.withShape shape).Holds valid :=
  holds_mk natural (h.length_eq.trans same.symm) h.all

section

variable {i : Int} {index : List Int}

/-- Where an index has a first component, there is a leading axis. -/
theorem shape_eq_cons (h : (i :: index).length ≤ a.rank) : a.shape = a.rowCount :: a.rowShape := by
  cases shape : a.shape with
  | nil =>
      rw [rank, shape] at h
      cases h
  | cons d s =>
      rw [rowCount, rowShape, shape]
      rfl

theorem rank_rowShape (h : (i :: index).length ≤ a.rank) : index.length ≤ a.rowShape.length := by
  rw [rowShape, List.length_tail]
  exact Nat.le_sub_of_add_le h

end

theorem mem_of_mem_cells {x : α} (mem : c ∈ a.cells depth) (hx : x ∈ c.items) : x ∈ a.items := by
  obtain ⟨p, hp, rfl⟩ := List.mem_map.mp mem
  exact mem_of_mem_pieces hp hx

theorem shape_of_mem_cells (mem : c ∈ a.cells depth) : c.shape = a.shape.drop depth := by
  obtain ⟨p, hp, rfl⟩ := List.mem_map.mp mem
  rfl

theorem WellFormed.cells (h : a.WellFormed) (mem : c ∈ a.cells depth) : c.WellFormed := by
  obtain ⟨p, hp, rfl⟩ := List.mem_map.mp mem
  have natural := h.natural.drop depth
  refine wellFormed_iff.mpr ⟨natural, ?_⟩
  rw [← Shape.cellCount_eq_volume natural] at hp
  refine length_of_mem_pieces (Nat.le_of_eq ?_) hp
  rw [Shape.cellCount_take_mul_drop, h.length_eq]

theorem Holds.cells (h : a.Holds valid) (mem : c ∈ a.cells depth) : c.Holds valid :=
  ⟨h.wellFormed.cells mem, fun x hx => h.all x (mem_of_mem_cells mem hx)⟩

theorem length_cells (a : Grid α) (depth : Nat) :
    (a.cells depth).length = Shape.cellCount (a.shape.take depth) := by
  rw [Grid.cells, List.length_map, length_pieces]

theorem cells_map (f : α → β) (a : Grid α) (depth : Nat) :
    (a.map f).cells depth = (a.cells depth).map (Grid.map f) := by
  rw [Grid.cells, Grid.cells, items_map, pieces_map, List.map_map, List.map_map]
  rfl

theorem WellFormed.rows (h : a.WellFormed) (mem : c ∈ a.rows) : c.WellFormed :=
  WellFormed.cells h mem

theorem Holds.rows (h : a.Holds valid) (mem : c ∈ a.rows) : c.Holds valid :=
  h.cells mem

theorem length_rows (a : Grid α) : a.rows.length = a.rowCount.toNat :=
  (length_cells a 1).trans (Shape.cellCount_take_one a.shape)

theorem rows_map (f : α → β) (a : Grid α) : (a.map f).rows = a.rows.map (Grid.map f) :=
  cells_map f a 1

theorem map_items_rows (a : Grid α) :
    a.rows.map (·.items) = pieces a.rowSize a.rowCount.toNat a.items := by
  rw [rows, cells, List.map_map, Shape.cellCount_take_one, List.drop_one]
  exact List.map_id _

theorem shape_of_mem_rows (mem : c ∈ a.rows) : c.shape = a.rowShape :=
  (shape_of_mem_cells mem).trans List.drop_one

theorem WellFormed.rowCount_nonneg (h : a.WellFormed) : 0 ≤ a.rowCount := by
  have natural := h.natural
  rw [Grid.rowCount]
  cases shape : a.shape with
  | nil => decide
  | cons d s =>
      rw [shape] at natural
      exact ((Shape.natural_cons d s).mp natural).1

theorem WellFormed.rowSize_eq (h : a.WellFormed) : a.rowSize = a.rowShape.cellCount :=
  (Shape.cellCount_eq_volume h.natural.tail).symm

/-- The elements are those of the rows. -/
theorem WellFormed.length_eq_rows (h : a.WellFormed) :
    a.items.length = a.rowCount.toNat * a.rowSize := by
  rw [h.length_eq, h.rowSize_eq]
  exact (Shape.cellCount_headD_tail a.shape).symm

theorem shape_of_mem_rowsFrom {start count : Nat} (mem : c ∈ a.rowsFrom start count) :
    c.shape = a.rowShape := by
  obtain ⟨p, hp, rfl⟩ := List.mem_map.mp mem
  rfl

theorem length_rowsFrom (start count : Nat) (a : Grid α) :
    (a.rowsFrom start count).length = count := by
  rw [rowsFrom, List.length_map, length_pieces]

/-- Rows that are there are well formed. -/
theorem Holds.rowsFrom {start count : Nat} (h : a.Holds valid)
    (there : start + count ≤ a.rowCount.toNat) (mem : c ∈ a.rowsFrom start count) :
    c.Holds valid := by
  obtain ⟨p, hp, rfl⟩ := List.mem_map.mp mem
  refine holds_mk h.natural.tail ?_ fun x hx => ?_
  · rw [← h.wellFormed.rowSize_eq]
    refine length_of_mem_pieces ?_ hp
    have total := h.wellFormed.length_eq_rows
    have enough := Nat.mul_le_mul_right a.rowSize there
    rw [Nat.add_mul] at enough
    rw [List.length_drop]
    omega
  · exact h.all x (List.mem_of_mem_drop (mem_of_mem_pieces hp hx))

end Grid

end RowMajor
