import RowMajor.Grid.Points
import RowMajor.Grid.Stacking
import RowMajor.Proofs.Grid.Cells
import RowMajor.Proofs.Outcome

/-!
# Grids put together

Stacking, joining and resizing well-formed grids gives well-formed grids or is refused, and
writing over parts that are there keeps the number of elements. None of it can end in a
shape that does not account for the elements.
-/

namespace RowMajor

variable {α β : Type} {valid : α → Prop}

/-- As many items as there are places, all of them valid. -/
structure Fills (valid : α → Prop) (places : Nat) (items : List α) : Prop where
  length : items.length = places
  all : ∀ x ∈ items, valid x

theorem fills_replicate {x : α} (hx : valid x) (count : Nat) :
    Fills valid count (List.replicate count x) :=
  ⟨List.length_replicate, fun _ hy => List.eq_of_mem_replicate hy ▸ hx⟩

namespace Fills

variable {places others count size : Nat} {items more : List α} {x : α}

theorem cast (h : Fills valid places items) (same : places = others) : Fills valid others items :=
  same ▸ h

theorem append (h : Fills valid places items) (h' : Fills valid others more) :
    Fills valid (places + others) (items ++ more) := by
  constructor
  · rw [List.length_append, h.length, h'.length]
  · intro x hx
    rcases List.mem_append.mp hx with hx | hx
    · exact h.all x hx
    · exact h'.all x hx

theorem take (h : Fills valid places items) (count : Nat) :
    Fills valid (min count places) (items.take count) := by
  refine ⟨?_, fun x hx => h.all x (List.mem_of_mem_take hx)⟩
  rw [List.length_take, h.length]

theorem drop (h : Fills valid places items) (count : Nat) :
    Fills valid (places - count) (items.drop count) := by
  refine ⟨?_, fun x hx => h.all x (List.mem_of_mem_drop hx)⟩
  rw [List.length_drop, h.length]

/-- One of several pieces of equal size. -/
theorem piece {i : Nat} (h : Fills valid (count * size) items) (there : i < count) :
    Fills valid size ((items.drop (i * size)).take size) := by
  have room : (i + 1) * size ≤ count * size := Nat.mul_le_mul_right size there
  rw [Nat.succ_mul] at room
  exact ((h.drop _).take _).cast (by omega)

/-- Lists that fill equally many places, one behind another. -/
theorem flatMap {xs : List β} {f : β → List α} (each : ∀ x ∈ xs, Fills valid size (f x)) :
    Fills valid (xs.length * size) (xs.flatMap f) := by
  refine ⟨length_flatMap_eq fun x hx => (each x hx).length, fun y hy => ?_⟩
  obtain ⟨x, hx, hy⟩ := List.mem_flatMap.mp hy
  exact (each x hx).all y hy

/-- Changing pieces of a list one by one. -/
theorem pieces {valid' : β → Prop} {size' : Nat} {change : List α → List β}
    (h : Fills valid (count * size) items)
    (keeps : ∀ piece, Fills valid size piece → Fills valid' size' (change piece)) :
    Fills valid' (count * size') ((RowMajor.pieces size count items).flatMap change) := by
  have each : ∀ p ∈ RowMajor.pieces size count items, Fills valid' size' (change p) := by
    intro p hp
    refine keeps p ⟨length_of_mem_pieces (Nat.le_of_eq h.length.symm) hp, fun x hx => ?_⟩
    exact h.all x (mem_of_mem_pieces hp hx)
  exact (flatMap each).cast (congrArg (· * size') (length_pieces ..))

theorem repeated (h : Fills valid places items) (count : Nat) :
    Fills valid (count * places) (repeated count items) := by
  have copies : ∀ copy ∈ List.replicate count items, Fills valid places copy :=
    fun _ hc => List.eq_of_mem_replicate hc ▸ h
  rw [repeated_eq, ← List.flatMap_id]
  exact (flatMap copies).cast (congrArg (· * places) List.length_replicate)

/-- New items take the places of as many old ones. -/
theorem splice {start : Nat} (h : Fills valid places items) (all : ∀ x ∈ more, valid x)
    (inside : start + more.length ≤ places) : Fills valid places (splice start more items) := by
  have new : Fills valid more.length more := ⟨rfl, all⟩
  have whole := ((h.take start).append new).append (h.drop (start + more.length))
  exact whole.cast (by omega)

theorem holds {shape : Shape} (h : Fills valid shape.cellCount items) (natural : shape.Natural) :
    (Grid.mk shape items).Holds valid :=
  Grid.holds_mk natural h.length h.all

/-- Items for every place of so many rows. -/
theorem holds_cons {rows : Int} {rowShape : Shape}
    (h : Fills valid (rows.toNat * rowShape.cellCount) items) (nonneg : 0 ≤ rows)
    (natural : rowShape.Natural) : (Grid.mk (rows :: rowShape) items).Holds valid :=
  holds h ((Shape.natural_cons ..).mpr ⟨nonneg, natural⟩)

end Fills

theorem Grid.Holds.fills {a : Grid α} (h : a.Holds valid) :
    Fills valid a.shape.cellCount a.items :=
  ⟨h.length_eq, h.all⟩

/-- The elements are those of the rows. -/
theorem Grid.Holds.fillsRows {a : Grid α} (h : a.Holds valid) :
    Fills valid (a.rowCount.toNat * a.rowShape.cellCount) a.items :=
  h.fills.cast (Shape.cellCount_headD_tail a.shape).symm

namespace Grid

theorem Holds.fit {a : Grid α} {kind : Kind} (h : a.Holds valid) :
    Yields (Grid.Holds valid) (a.fit kind) := by
  rw [fit_eq_ok h.wellFormed.fits]
  exact h

/-- Rows of one shape, one behind another. -/
theorem holds_rows {rowShape : Shape} {rows : List (Grid α)} (natural : rowShape.Natural)
    (all : ∀ row ∈ rows, row.Holds valid ∧ row.shape = rowShape) :
    (Grid.mk (Int.ofNat rows.length :: rowShape) (rows.flatMap (·.items))).Holds valid := by
  refine Fills.holds_cons (Fills.flatMap fun row mem => ?_) (Int.natCast_nonneg _) natural
  obtain ⟨h, shape⟩ := all row mem
  exact shape ▸ h.fills

theorem ofRows_yields {rowShape : Shape} {rows : List (Grid α)} (natural : rowShape.Natural)
    (all : ∀ row ∈ rows, row.Holds valid) : Yields (Grid.Holds valid) (ofRows rowShape rows) := by
  cases rows with
  | nil => exact holds_rows natural fun _ hr => absurd hr List.not_mem_nil
  | cons row rows =>
      rw [ofRows, stack]
      cases other : rows.find? (fun other => other.shape ≠ row.shape) with
      | some other => trivial
      | none =>
          have first := all row List.mem_cons_self
          refine holds_rows first.natural fun r hr => ⟨all r hr, ?_⟩
          rcases List.mem_cons.mp hr with rfl | hr
          · rfl
          · simpa using List.find?_eq_none.mp other r hr

theorem join_yields {a b : Grid α} (ha : a.Holds valid) (hb : b.Holds valid) :
    Yields (Grid.Holds valid) (a.join b) := by
  have rowsA := ha.wellFormed.rowCount_nonneg
  have rowsB := hb.wellFormed.rowCount_nonneg
  rw [join]
  split
  · rename_i same
    have together := ha.fillsRows.append (same.2 ▸ hb.fillsRows)
    refine (together.cast ?_).holds_cons (Int.add_nonneg rowsA rowsB) ha.natural.tail
    rw [Int.toNat_add rowsA rowsB, Nat.add_mul]
  · split
    · rename_i asRow
      have together := (asRow.2 ▸ ha.fills).append hb.fillsRows
      refine (together.cast ?_).holds_cons (Int.add_nonneg rowsB (by decide)) hb.natural.tail
      rw [Int.toNat_add rowsB (by decide), Nat.add_comm]
      exact (Nat.succ_mul ..).symm
    · split
      · rename_i asRow
        have together := ha.fillsRows.append (asRow.2 ▸ hb.fills)
        refine (together.cast ?_).holds_cons (Int.add_nonneg rowsA (by decide)) ha.natural.tail
        rw [Int.toNat_add rowsA (by decide)]
        exact (Nat.succ_mul ..).symm
      · trivial

theorem mem_of_get? {a : Grid α} {index : List Nat} {x : α} (found : a.get? index = some x) :
    x ∈ a.items := by
  rw [get?] at found
  split at found
  · exact List.mem_of_getElem? found
  · cases found

/-- A resized grid has the target shape. -/
theorem resize_yields {kind : Kind} {target : Shape} {x : α} {a : Grid α} (h : a.Holds valid)
    (natural : target.Natural) (hx : valid x) :
    Yields (fun b => b.Holds valid ∧ b.shape = target) (a.resize kind target x) := by
  rw [resize]
  split
  · trivial
  · simp only
    split
    · rename_i same
      refine ⟨?_, same⟩
      have ones := (Shape.natural_replicate_one (target.length - a.rank)).append h.natural
      exact h.withShape ones (Shape.cellCount_ones_append ..)
    · generalize padding : a.withShape (List.replicate (target.length - a.rank) 1 ++ a.shape) = b
      have items : b.items = a.items := by
        rw [← padding]
        rfl
      have padded : (Grid.mk target (target.coordinates.map fun index =>
          (b.get? index).getD x)).Holds valid := by
        refine holds_mk natural ?_ fun y hy => ?_
        · rw [List.length_map, Shape.length_coordinates]
        · obtain ⟨index, -, rfl⟩ := List.mem_map.mp hy
          cases found : b.get? index with
          | none => exact hx
          | some y => exact h.all y (items ▸ mem_of_get? found)
      rw [fit_eq_ok padded.wellFormed.fits]
      exact ⟨padded, rfl⟩

theorem fills_splices {a : Grid α} {writes : List (List Nat × List α)} {items : List α}
    (h : Fills valid a.items.length items)
    (inside : ∀ w ∈ writes, a.shape.offset w.1 + w.2.length ≤ a.items.length)
    (new : ∀ w ∈ writes, ∀ x ∈ w.2, valid x) :
    Fills valid a.items.length (writes.foldl
      (fun items (place, cell) => splice (a.shape.offset place) cell items) items) := by
  induction writes generalizing items with
  | nil => exact h
  | cons write writes ih =>
      have written := h.splice (new write List.mem_cons_self) (inside write List.mem_cons_self)
      exact ih written (fun w hw => inside w (List.mem_cons_of_mem _ hw))
        fun w hw => new w (List.mem_cons_of_mem _ hw)

/-- Cells that lie within the grid can be written over. -/
theorem Holds.writeCells {a : Grid α} {places : List (List Nat)} {cells : List (List α)}
    (h : a.Holds valid)
    (inside : ∀ w ∈ places.zip cells, a.shape.offset w.1 + w.2.length ≤ a.items.length)
    (new : ∀ cell ∈ cells, ∀ x ∈ cell, valid x) : (a.writeCells places cells).Holds valid := by
  have written := fills_splices ⟨rfl, h.all⟩ inside fun w hw => new w.2 (List.of_mem_zip hw).2
  exact (written.cast h.length_eq).holds h.natural

end Grid

end RowMajor
