import RowMajor.Proofs.Grid.Building
import RowMajor.Proofs.Grid.Coordinates

/-!
# Rows of grids by position

The rows of a grid with axes are its cells below one coordinate, and a grid that is stacked
from rows of one shape has these as its rows. Both directions are stated for positions, so
that an operation which works row by row is followed through the row a coordinate vector
begins with.
-/

namespace RowMajor

variable {α β : Type}

theorem pieces_eq_map (size count : Nat) (items : List α) :
    pieces size count items =
      (List.range count).map fun i => (items.drop (i * size)).take size := by
  induction count generalizing items with
  | zero => rfl
  | succ count ih =>
      rw [pieces, ih, List.range_succ_eq_map, List.map_cons, List.map_map, Nat.zero_mul,
        List.drop_zero]
      refine congrArg _ (List.map_congr_left fun i _ => ?_)
      rw [List.drop_drop, Function.comp_apply, Nat.succ_mul, Nat.add_comm]

theorem getElem?_pieces {size count i : Nat} (there : i < count) (items : List α) :
    (pieces size count items)[i]? = some ((items.drop (i * size)).take size) := by
  rw [pieces_eq_map, List.getElem?_map, List.getElem?_range there]
  rfl

theorem flatten_pieces_eq_take (size count : Nat) (items : List α) :
    (pieces size count items).flatten = items.take (count * size) := by
  induction count generalizing items with
  | zero => rw [Nat.zero_mul, List.take_zero]; rfl
  | succ count ih =>
      rw [pieces, List.flatten_cons, ih, Nat.succ_mul, Nat.add_comm, List.take_add]

theorem pieces_of_nil (size count : Nat) :
    pieces size count ([] : List α) = List.replicate count [] := by
  induction count with
  | zero => rfl
  | succ count ih => rw [pieces, List.take_nil, List.drop_nil, ih, List.replicate_succ]

theorem pieces_append_pieces (size m n : Nat) (items : List α) :
    pieces size (m + n) items = pieces size m items ++ pieces size n (items.drop (m * size)) := by
  induction m generalizing items with
  | zero => rw [Nat.zero_add, Nat.zero_mul, List.drop_zero, pieces_zero, List.nil_append]
  | succ m ih =>
      rw [Nat.succ_add, pieces, pieces, ih, List.drop_drop, Nat.succ_mul, Nat.add_comm size]
      rfl

theorem pieces_take (size count : Nat) (items : List α) :
    pieces size count (items.take (count * size)) = pieces size count items := by
  refine List.ext_getElem? fun i => ?_
  rcases Nat.lt_or_ge i count with there | beyond
  · have room : size ≤ count * size - i * size := by
      rw [← Nat.sub_mul]
      exact Nat.le_mul_of_pos_left size (Nat.sub_pos_of_lt there)
    rw [getElem?_pieces there, getElem?_pieces there, List.drop_take, List.take_take,
      Nat.min_eq_left room]
  · rw [List.getElem?_eq_none (by rwa [length_pieces]),
      List.getElem?_eq_none (by rwa [length_pieces])]

/-- Pieces may be cut from larger pieces. -/
theorem pieces_mul (size count times : Nat) (items : List α) :
    pieces size (times * count) items =
      ((pieces (count * size) times items).map (pieces size count)).flatten := by
  induction times generalizing items with
  | zero =>
      rw [Nat.zero_mul]
      rfl
  | succ times ih =>
      rw [Nat.succ_mul, Nat.add_comm, pieces_append_pieces, ih, pieces, List.map_cons,
        List.flatten_cons, pieces_take]

theorem splice_eq (start : Nat) (new items : List α) :
    splice start new items = items.take start ++ new ++ items.drop (start + new.length) := rfl

theorem length_splice {start : Nat} {new items : List α}
    (room : start + new.length ≤ items.length) :
    (splice start new items).length = items.length := by
  rw [splice_eq, List.length_append, List.length_append, List.length_take, List.length_drop]
  omega

/-- What was written is there. -/
theorem getElem?_splice_inside {start : Nat} {new items : List α} {i : Nat}
    (room : start + new.length ≤ items.length) (inside : i < new.length) :
    (splice start new items)[start + i]? = new[i]? := by
  have before : (items.take start).length = start := by
    rw [List.length_take]
    omega
  rw [splice_eq, List.append_assoc, List.getElem?_append_right (by omega), before,
    Nat.add_sub_cancel_left, List.getElem?_append_left inside]

/-- Nothing else has changed. -/
theorem getElem?_splice_outside {start : Nat} {new items : List α} {i : Nat}
    (room : start + new.length ≤ items.length) (outside : i < start ∨ start + new.length ≤ i) :
    (splice start new items)[i]? = items[i]? := by
  have before : (items.take start).length = start := by
    rw [List.length_take]
    omega
  rw [splice_eq, List.append_assoc]
  rcases outside with first | last
  · rw [List.getElem?_append_left (by omega), List.getElem?_take_of_lt first]
  · rw [List.getElem?_append_right (by omega), List.getElem?_append_right (by omega), before,
      List.getElem?_drop]
    congr 1
    omega

/-- Writing what is there changes nothing. -/
theorem splice_same (start size : Nat) (items : List α) (room : start + size ≤ items.length) :
    splice start ((items.drop start).take size) items = items := by
  have length : ((items.drop start).take size).length = size := by
    rw [List.length_take, List.length_drop]
    omega
  rw [splice_eq, length, List.append_assoc, ← List.drop_drop, List.take_append_drop,
    List.take_append_drop]

theorem mem_of_mem_splice {start : Nat} {new items : List α} {x : α}
    (mem : x ∈ splice start new items) : x ∈ new ∨ x ∈ items := by
  rcases List.mem_append.mp mem with mem | after
  · rcases List.mem_append.mp mem with before | new
    · exact .inr (List.mem_of_mem_take before)
    · exact .inl new
  · exact .inr (List.mem_of_mem_drop after)

theorem exists_forall₂ {γ : Type} {R : α → γ → Prop} {ys : List γ}
    (each : ∀ y ∈ ys, ∃ x, R x y) : ∃ xs, List.Forall₂ R xs ys := by
  induction ys with
  | nil => exact ⟨[], .nil⟩
  | cons y ys ih =>
      obtain ⟨x, first⟩ := each y List.mem_cons_self
      obtain ⟨xs, rest⟩ := ih fun z mem => each z (List.mem_cons_of_mem _ mem)
      exact ⟨x :: xs, .cons first rest⟩

theorem exists_of_forall₂_right {γ : Type} {R : α → γ → Prop} {xs : List α} {ys : List γ}
    {y : γ} (h : List.Forall₂ R xs ys) (mem : y ∈ ys) : ∃ x ∈ xs, R x y := by
  induction h with
  | nil => cases mem
  | cons head _ ih =>
      rcases List.mem_cons.mp mem with rfl | mem
      · exact ⟨_, List.mem_cons_self, head⟩
      · obtain ⟨x, there, related⟩ := ih mem
        exact ⟨x, List.mem_cons_of_mem _ there, related⟩

/-- Corresponding items with the same image. -/
theorem map_eq_map_of_forall₂ {γ : Type} {f : α → γ} {g : β → γ} {xs : List α} {ys : List β}
    (same : List.Forall₂ (fun x y => f x = g y) xs ys) : xs.map f = ys.map g := by
  induction same with
  | nil => rfl
  | cons head _ ih => rw [List.map_cons, List.map_cons, head, ih]

/-- What is related to the images of positions is found at these positions. -/
theorem getElem?_of_forall₂_range {γ : Type} {R : α → γ → Prop} {f : Nat → α} {count : Nat}
    {results : List γ} (h : List.Forall₂ R ((List.range count).map f) results) {i : Nat}
    (there : i < count) : ∃ y, results[i]? = some y ∧ R (f i) y := by
  obtain ⟨length, each⟩ := List.forall₂_iff_get.mp h
  rw [List.length_map, List.length_range] at length
  have related := each i (by rwa [List.length_map, List.length_range]) (length ▸ there)
  rw [List.get_eq_getElem, List.getElem_map, List.getElem_range] at related
  exact ⟨_, List.getElem?_eq_getElem (length ▸ there), related⟩

/-- All shapes are the same. -/
def Shape.Alike (shapes : List Shape) : Prop :=
  ∀ s ∈ shapes, ∀ t ∈ shapes, s = t

namespace Shape

variable {shapes : List Shape} {s t : Shape}

theorem alike_of_forall_eq (each : ∀ t ∈ shapes, t = s) : Alike shapes :=
  fun t ht u hu => (each t ht).trans (each u hu).symm

theorem Alike.eq_headD (alike : Alike shapes) (mem : t ∈ shapes) : t = shapes.headD s := by
  cases shapes with
  | nil => cases mem
  | cons first rest => exact alike t mem first List.mem_cons_self

end Shape

namespace Grid

variable {a : Grid α} {d : Int} {s : Shape} {rows : List (Grid α)} {row : Grid α} {i : Nat}
  {index : List Nat}

theorem WellFormed.natural_rowShape (h : a.WellFormed) : a.rowShape.Natural :=
  h.natural.tail

theorem WellFormed.natural_of_shape (h : a.WellFormed) (shape : a.shape = d :: s) :
    0 ≤ d ∧ s.Natural := by
  rw [← Shape.natural_cons, ← shape]
  exact h.natural

theorem rowCount_of_shape (shape : a.shape = d :: s) : a.rowCount = d := by
  rw [rowCount, shape]
  rfl

theorem rowShape_of_shape (shape : a.shape = d :: s) : a.rowShape = s := by
  rw [rowShape, shape]
  rfl

theorem length_rows_of_shape (shape : a.shape = d :: s) : a.rows.length = d.toNat := by
  rw [length_rows, rowCount_of_shape shape]

theorem rowsFrom_eq_map (shape : a.shape = d :: s) (start count : Nat) :
    a.rowsFrom start count = (List.range count).map fun i => a.cellAt [start + i] := by
  rw [rowsFrom, pieces_eq_map, List.map_map]
  refine List.map_congr_left fun i _ => ?_
  rw [Function.comp_apply, List.drop_drop, rowSize, rowShape, cellAt, shape, ← Nat.add_mul,
    Shape.offset, Shape.offset_nil]
  rfl

theorem rows_eq_map (shape : a.shape = d :: s) :
    a.rows = (List.range d.toNat).map fun i => a.cellAt [i] := by
  have whole : a.rows = a.rowsFrom 0 d.toNat := by
    rw [rows, cells, rowsFrom, rowSize, rowShape, List.drop_one, shape, Nat.zero_mul,
      List.drop_zero, List.take_succ_cons, List.take_zero, Shape.cellCount, Shape.cellCount,
      Nat.mul_one]
  rw [whole, rowsFrom_eq_map shape]
  simp only [Nat.zero_add]

/-- Consecutive rows. -/
theorem take_drop_rows (shape : a.shape = d :: s) {start count : Nat}
    (room : start + count ≤ d.toNat) :
    (a.rows.drop start).take count = a.rowsFrom start count := by
  rw [rows_eq_map shape, rowsFrom_eq_map shape]
  refine List.ext_getElem? fun i => ?_
  rw [List.getElem?_take, List.getElem?_drop, List.getElem?_map, List.getElem?_map]
  split
  · rename_i there
    rw [List.getElem?_range (by omega), List.getElem?_range there]
    rfl
  · rename_i outside
    rw [List.getElem?_eq_none (by rw [List.length_range]; exact Nat.not_lt.mp outside)]
    rfl

theorem contains_row (shape : a.shape = d :: s) (there : i < d.toNat) :
    a.shape.contains [i] = true := by
  rw [shape]
  exact Shape.contains_cons.mpr ⟨there, by cases s <;> rfl⟩

theorem shape_row (shape : a.shape = d :: s) (i : Nat) : (a.cellAt [i]).shape = s := by
  rw [shape_cellAt, shape]
  rfl

theorem items_row (shape : a.shape = d :: s) (i : Nat) :
    (a.cellAt [i]).items = (a.items.drop (i * s.volume)).take s.volume := by
  rw [cellAt, shape, Shape.offset, Shape.offset_nil]
  rfl

theorem WellFormed.cellAt_row (h : a.WellFormed) (shape : a.shape = d :: s)
    (there : i < d.toNat) : (a.cellAt [i]).WellFormed :=
  h.cellAt (by rw [rank, shape]; exact Nat.succ_le_succ (Nat.zero_le _))
    (contains_row shape there)

theorem get?_row (natural : a.shape.Natural) (shape : a.shape = d :: s) (there : i < d.toNat) :
    (a.cellAt [i]).get? index = a.get? (i :: index) :=
  get?_cellAt natural (by rw [rank, shape]; exact Nat.succ_le_succ (Nat.zero_le _))
    (contains_row shape there)

/-- A cell of a row is the cell of the grid below the longer place. -/
theorem cellAt_cellAt_row {place : List Nat} (h : a.WellFormed) (shape : a.shape = d :: s)
    (there : i < d.toNat) (rank : place.length ≤ s.length) (within : s.contains place = true) :
    (a.cellAt [i]).cellAt place = a.cellAt (i :: place) := by
  have rowShape := shape_row shape i
  have rankRow : place.length ≤ (a.cellAt [i]).rank := by
    rw [Grid.rank, rowShape]
    exact rank
  have withinRow : (a.cellAt [i]).shape.contains place = true := by
    rw [rowShape]
    exact within
  refine cellAt_cellAt h ?_ (contains_row shape there) rankRow withinRow
  rw [Grid.rank, shape]
  exact Nat.succ_le_succ (Nat.zero_le _)

theorem at?_row {rest : List Int} (natural : a.shape.Natural) (shape : a.shape = d :: s)
    (there : i < d.toNat) : (a.cellAt [i]).at? rest = a.at? (Int.ofNat i :: rest) := by
  have bound : (0 : Int) ≤ Int.ofNat i := Int.natCast_nonneg i
  simp only [at?, List.forall_mem_cons, bound, true_and, List.map_cons,
    get?_row natural shape there]
  rfl

/-- There is nothing before the first row and nothing after the last one. -/
theorem at?_of_no_row {j : Int} {rest : List Int} (shape : a.shape = d :: s)
    (outside : j < 0 ∨ d ≤ j) : a.at? (j :: rest) = none := by
  rw [at?]
  split
  · rename_i nonneg
    refine get?_of_not_mem fun mem => ?_
    rw [shape, List.map_cons, Shape.cons_mem_coordinates] at mem
    have := nonneg j List.mem_cons_self
    omega
  · rfl

theorem flatMap_rowsFrom (start count : Nat) (a : Grid α) :
    (a.rowsFrom start count).flatMap (·.items) =
      (a.items.drop (start * a.rowSize)).take (count * a.rowSize) := by
  rw [rowsFrom, List.flatMap_map, ← flatten_pieces_eq_take]
  exact List.flatMap_id

/-- Rows of the given shape, one behind another. -/
def stacked (rowShape : Shape) (rows : List (Grid α)) : Grid α :=
  ⟨Int.ofNat rows.length :: rowShape, rows.flatMap (·.items)⟩

theorem WellFormed.stacked (natural : s.Natural)
    (all : ∀ row ∈ rows, row.WellFormed ∧ row.shape = s) : (stacked s rows).WellFormed :=
  (holds_rows natural fun row mem =>
    ⟨(all row mem).1.holds_trivial, (all row mem).2⟩).wellFormed

/-- Cells of one shape, one behind another, are the cells of the grid that they make up. -/
theorem cells_mk_flatMap (frame : Shape) {cells : List (Grid α)}
    (all : ∀ c ∈ cells, c.WellFormed ∧ c.shape = s) (count : cells.length = frame.cellCount) :
    (Grid.mk (frame ++ s) (cells.flatMap (·.items))).cells frame.length = cells := by
  have lengths : ∀ items ∈ cells.map (·.items), items.length = s.volume := by
    intro items mem
    obtain ⟨c, there, rfl⟩ := List.mem_map.mp mem
    obtain ⟨h, rfl⟩ := all c there
    rw [h.length_eq, Shape.cellCount_eq_volume h.natural]
  have parts : pieces s.volume frame.cellCount (cells.flatMap (·.items)) =
      cells.map (·.items) := by
    have again := pieces_flatten lengths
    rwa [List.length_map, ← List.flatMap_def, count] at again
  have restored : (cells.map (·.items)).map (Grid.mk s) = cells := by
    rw [List.map_map]
    refine (List.map_congr_left fun c mem => ?_).trans (List.map_id cells)
    obtain ⟨-, rfl⟩ := all c mem
    rfl
  simp only [Grid.cells, List.drop_left, List.take_left]
  exact (congrArg (List.map _) parts).trans restored

theorem rows_stacked (all : ∀ row ∈ rows, row.WellFormed ∧ row.shape = s) :
    (stacked s rows).rows = rows :=
  cells_mk_flatMap [Int.ofNat rows.length] all (Nat.mul_one rows.length).symm

/-- The rows that were stacked are the cells below their positions. -/
theorem cellAt_stacked (all : ∀ row ∈ rows, row.WellFormed ∧ row.shape = s)
    (here : rows[i]? = some row) : (stacked s rows).cellAt [i] = row := by
  have there : i < rows.length := (List.getElem?_eq_some_iff.mp here).1
  have taken : (List.range rows.length).map (fun j => (stacked s rows).cellAt [j]) = rows :=
    (rows_eq_map (a := stacked s rows) rfl).symm.trans (rows_stacked all)
  rw [← taken, List.getElem?_map, List.getElem?_range there] at here
  exact Option.some.inj here

theorem get?_stacked (natural : s.Natural)
    (all : ∀ row ∈ rows, row.WellFormed ∧ row.shape = s) (here : rows[i]? = some row) :
    (stacked s rows).get? (i :: index) = row.get? index := by
  have there : i < rows.length := (List.getElem?_eq_some_iff.mp here).1
  have natural : (stacked s rows).shape.Natural :=
    (Shape.natural_cons ..).mpr ⟨Int.natCast_nonneg _, natural⟩
  rw [← cellAt_stacked all here, get?_row natural rfl there]

/-- Stacking the rows of a grid gives the grid. -/
theorem stacked_rows (h : a.WellFormed) (shape : a.shape = d :: s) : stacked s a.rows = a := by
  have count := rowCount_of_shape shape
  have nonneg := (h.natural_of_shape shape).1
  have rows : a.rows = a.rowsFrom 0 d.toNat := by
    rw [← take_drop_rows shape (Nat.le_of_eq (Nat.zero_add _)), List.drop_zero]
    refine (List.take_of_length_le (Nat.le_of_eq ?_)).symm
    rw [length_rows, count]
  have items : a.rows.flatMap (·.items) = a.items := by
    rw [rows, flatMap_rowsFrom, Nat.zero_mul, List.drop_zero]
    refine List.take_of_length_le (Nat.le_of_eq ?_)
    rw [h.length_eq_rows, count]
  have length : Int.ofNat a.rows.length = d := by
    rw [length_rows, count]
    exact Int.toNat_of_nonneg nonneg
  rw [stacked, items, length, ← shape]

/-- Rows are stacked if they have one shape. Otherwise one of them is not shaped like the first. -/
theorem stack_spec (s : Shape) (rows : List (Grid α)) :
    Outcome (fun a => Shape.Alike (rows.map (·.shape)) ∧
        a = stacked ((rows.map (·.shape)).headD s) rows)
      (fun e => ∃ first other, rows.head? = some first ∧ other ∈ rows ∧
        first.shape ≠ other.shape ∧ e = (first.shape, other.shape)) (stack s rows) := by
  cases rows with
  | nil => exact ⟨fun _ never => absurd never List.not_mem_nil, rfl⟩
  | cons first rows =>
      rw [stack]
      cases found : rows.find? fun other => other.shape ≠ first.shape with
      | some other =>
          have apart : other.shape ≠ first.shape := by simpa using List.find?_some found
          have mem := List.mem_cons_of_mem first (List.mem_of_find?_eq_some found)
          exact ⟨first, other, rfl, mem, apart.symm, rfl⟩
      | none =>
          have front : ∀ t ∈ (first :: rows).map (·.shape), t = first.shape := by
            refine List.forall_mem_map.mpr (List.forall_mem_cons.mpr ⟨rfl, fun other mem => ?_⟩)
            simpa using List.find?_eq_none.mp found other mem
          exact ⟨Shape.alike_of_forall_eq front, rfl⟩

theorem ofRows_spec (s : Shape) (rows : List (Grid α)) :
    Outcome (fun a => Shape.Alike (rows.map (·.shape)) ∧
        a = stacked ((rows.map (·.shape)).headD s) rows)
      (fun e => ∃ first other, rows.head? = some first ∧ other ∈ rows ∧
        first.shape ≠ other.shape ∧ e = .shape (.rowShapes first.shape other.shape))
      (ofRows s rows) := by
  have spec := stack_spec s rows
  rw [ofRows]
  cases result : stack s rows with
  | ok a =>
      rw [result] at spec
      exact spec
  | error e =>
      rw [result] at spec
      obtain ⟨first, other, head, mem, apart, rfl⟩ := spec
      exact ⟨first, other, head, mem, apart, rfl⟩

/-- Stacked rows have the shape of the first, and the given one if there are none. -/
theorem ofRows_of_alike (alike : Shape.Alike (rows.map (·.shape))) :
    ofRows s rows = .ok (stacked ((rows.map (·.shape)).headD s) rows) := by
  rcases (ofRows_spec s rows).ok_or_error with
    ⟨a, result, -, rfl⟩ | ⟨e, -, first, other, head, mem, apart, -⟩
  · exact result
  · exact absurd (alike _ (List.mem_map_of_mem (List.mem_of_head? head)) _
      (List.mem_map_of_mem mem)) apart

/-- Rows of the given shape can always be stacked. -/
theorem ofRows_eq_stacked (same : ∀ row ∈ rows, row.shape = s) :
    ofRows s rows = .ok (stacked s rows) := by
  have front : (rows.map (·.shape)).headD s = s := by
    cases rows with
    | nil => rfl
    | cons row rows => exact same row List.mem_cons_self
  rw [ofRows_of_alike (Shape.alike_of_forall_eq (List.forall_mem_map.mpr same)), front]

/-- Joining grids with rows of one shape puts the rows of one behind those of the other. -/
theorem join_eq_stacked {b : Grid α} {m : Int} (ha : a.WellFormed) (hb : b.WellFormed)
    (shape : a.shape = d :: s) (other : b.shape = m :: s) :
    a.join b = .ok (stacked s (a.rows ++ b.rows)) := by
  have same : a.rank = b.rank ∧ a.rowShape = b.rowShape := by
    rw [rank, rank, rowShape, rowShape, shape, other]
    exact ⟨rfl, rfl⟩
  have counts : a.rowCount + b.rowCount = Int.ofNat (a.rows ++ b.rows).length := by
    rw [List.length_append, length_rows, length_rows]
    have := ha.rowCount_nonneg
    have := hb.rowCount_nonneg
    simp only [Int.ofNat_eq_natCast]
    omega
  have items : a.items ++ b.items = (a.rows ++ b.rows).flatMap (·.items) := by
    rw [List.flatMap_append]
    exact congr (congrArg _ (congrArg Grid.items (stacked_rows ha shape)).symm)
      (congrArg Grid.items (stacked_rows hb other)).symm
  rw [join]
  show (if a.rank = b.rank ∧ a.rowShape = b.rowShape then _ else _) = _
  rw [if_pos same, counts, items, rowShape, shape]
  rfl

end Grid

end RowMajor
