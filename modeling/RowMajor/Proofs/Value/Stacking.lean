import Mathlib.Data.List.TakeWhile
import RowMajor.Proofs.Buffer.Slicing
import RowMajor.Proofs.Grid.Rows
import RowMajor.Proofs.Value.Cells

/-!
# Cutting into rows and stacking

The rows of a value with axes are stacked to this value again, and a value that is stacked from
given rows has these as its rows. Rows can be stacked exactly if all of them have one shape.
Stacking goes by the elements of the rows, whatever form they are held in, so it is followed
through the grids of elements of any kind.

A value is cut by slicing its buffer, and its rows are stacked by extending a new buffer by each
of theirs in turn. What the new buffer shows in the end are the elements of the value that is
stacked.
-/

namespace RowMajor

variable {α β : Type}

namespace Grid

variable {a : Grid α} {d : Int} {s : Shape} {rows : List (Grid α)} {i : Nat}

theorem flatMap_items_rows (h : a.WellFormed) (shape : a.shape = d :: s) :
    a.rows.flatMap (·.items) = a.items :=
  congrArg Grid.items (stacked_rows h shape)

/-- The part of the elements that belongs to a row lies within them. -/
theorem WellFormed.rowAt_eq (h : a.WellFormed) (shape : a.shape = d :: s) (there : i < d.toNat) :
    a.rowAt (Int.ofNat i) = .ok (a.cellAt [i]) := by
  have rowShape := rowShape_of_shape shape
  have natural := (h.natural_of_shape shape).2
  have size : Shape.size a.rowShape = Int.ofNat s.volume := by
    rw [rowShape, Shape.size_eq_cellCount natural, Shape.cellCount_eq_volume natural]
  have total : a.items.length = d.toNat * s.volume := by
    rw [h.length_eq, shape, Shape.cellCount, Shape.cellCount_eq_volume natural]
  have enough : (i + 1) * s.volume ≤ a.items.length :=
    total ▸ Nat.mul_le_mul_right s.volume there
  have inside : ¬ (Int.ofNat (i * s.volume) < 0 ∨ Int.ofNat s.volume < 0 ∨
      Int.ofNat a.items.length < Int.ofNat (i * s.volume) + Int.ofNat s.volume) := by
    rw [Nat.succ_mul] at enough
    simp only [Int.ofNat_eq_natCast]
    omega
  have row : a.cellAt [i] = ⟨s, (a.items.drop (i * s.volume)).take s.volume⟩ := by
    rw [← items_row shape, ← shape_row shape i]
  rw [rowAt, size, row, rowShape]
  exact if_neg inside

theorem ofRows_map (f : α → β) (s : Shape) (rows : List (Grid α)) :
    ofRows s (rows.map (Grid.map f)) = (ofRows s rows).map (Grid.map f) := by
  cases rows with
  | nil => rfl
  | cons row rows =>
      have found : (rows.map (Grid.map f)).find? (fun other => other.shape ≠ (row.map f).shape) =
          (rows.find? fun other => other.shape ≠ row.shape).map (Grid.map f) :=
        List.find?_map
      rw [List.map_cons, ofRows, ofRows, stack, stack, found]
      cases rows.find? fun other => other.shape ≠ row.shape with
      | some other => rfl
      | none =>
          have items : (row.map f :: rows.map (Grid.map f)).flatMap (·.items) =
              ((row :: rows).flatMap (·.items)).map f := by
            rw [← List.map_cons, List.flatMap_map, List.map_flatMap]
            rfl
          simp only [Option.map_none, items, List.length_map]
          rfl

end Grid

namespace Value

variable {v w : Value} {f : Form} {k : Kind} {s : Shape} {rows : List Value}

theorem loosen_ofGrid (a : Grid f.Element) :
    (ofGrid f a).loosen = .mixed f.kind (a.map f.item) := by
  rw [loosen, kind_ofGrid, itemGrid_ofGrid]

theorem rows_loosen (v : Value) : v.loosen.rows = v.rows.map loosen := by
  obtain ⟨f, a, rfl⟩ := v.exists_form
  rw [loosen_ofGrid, rows_ofGrid, List.map_map]
  refine (rows_ofGrid (f := .mixed f.kind) (a.map f.item)).trans ?_
  rw [Grid.rows_map, List.map_map]
  exact List.map_congr_left fun row _ => (loosen_ofGrid row).symm

theorem shape_itemGrid (v : Value) : v.itemGrid.shape = v.shape := rfl

theorem gridOf?_ofGrid (a : Grid f.Element) : (ofGrid f a).gridOf? f = some a := by
  have whole := form_grid_ofGrid
    (fun g b => if h : g = f then some (h ▸ b : Grid f.Element) else none) a
  exact whole.trans (dif_pos rfl)

theorem mapM_gridOf? (grids : List (Grid f.Element)) :
    (grids.map (ofGrid f)).mapM (gridOf? f) = some grids :=
  mapM_eq_some_iff.mpr <| List.forall₂_map_left_iff.mpr <|
    List.forall₂_same.mpr fun a _ => gridOf?_ofGrid a

theorem ofRows_of_uniform {grids : List (Grid k.Element)}
    (held : rows.mapM (gridOf? (.uniform k)) = some grids) :
    ofRows k s rows = (Grid.ofRows s grids).map (ofGrid (.uniform k)) := by
  rw [ofRows]
  simp only [held]
  cases Grid.ofRows s grids <;> rfl

theorem ofRows_of_mixed (held : rows.mapM (gridOf? (.uniform k)) = none) :
    ofRows k s rows = (Grid.ofRows s (rows.map itemGrid)).map (mixed k) := by
  rw [ofRows]
  simp only [held]
  cases Grid.ofRows s (rows.map itemGrid) <;> rfl

/-- Whatever forms the rows are held in, it is their elements that are stacked. -/
theorem loosen_ofRows (k : Kind) (s : Shape) (rows : List Value) :
    (ofRows k s rows).map loosen = (Grid.ofRows s (rows.map itemGrid)).map (mixed k) := by
  cases held : rows.mapM (gridOf? (.uniform k)) with
  | none =>
      rw [ofRows_of_mixed held]
      cases Grid.ofRows s (rows.map itemGrid) with
      | error e => rfl
      | ok b => exact congrArg (fun items => Except.ok (mixed k items)) (Grid.map_id b)
  | some grids =>
      have each : rows.map itemGrid = grids.map (Grid.map (Form.uniform k).item) := by
        refine map_eq_map_of_forall₂ ((mapM_eq_some_iff.mp held).imp fun row a found => ?_)
        rw [gridOf?_eq_some found, itemGrid_ofGrid]
      rw [ofRows_of_uniform held, each, Grid.ofRows_map]
      cases Grid.ofRows s grids with
      | error e => rfl
      | ok a => exact congrArg Except.ok (loosen_ofGrid a)

/-- Rows of one form are stacked in this form. -/
theorem ofRows_map_ofGrid (s : Shape) {grids : List (Grid f.Element)}
    (form : f.IsUniform ∨ grids ≠ []) :
    ofRows f.kind s (grids.map (ofGrid f)) = (Grid.ofRows s grids).map (ofGrid f) := by
  match f, grids, form with
  | .uniform k, grids, _ => exact ofRows_of_uniform (mapM_gridOf? grids)
  | .mixed k, grids, form =>
      -- No mixed row is taken for a uniform one, so it needs a single row to keep the form.
      obtain ⟨first, mem⟩ := List.exists_mem_of_ne_nil grids
        (form.resolve_left (Form.not_isUniform_mixed k))
      have held : (grids.map (ofGrid (.mixed k))).mapM (gridOf? (.uniform k)) = none :=
        mapM_eq_none_iff.mpr ⟨_, List.mem_map_of_mem mem, rfl⟩
      have same : (grids.map (ofGrid (.mixed k))).map itemGrid = grids := by
        rw [List.map_map]
        exact (List.map_congr_left fun a _ => Grid.map_id a).trans (List.map_id grids)
      show ofRows k s _ = _
      rw [ofRows_of_mixed held, same]
      rfl

theorem exists_map_ofGrid (forms : ∀ row ∈ rows, row.form = f) :
    ∃ grids : List (Grid f.Element), rows = grids.map (ofGrid f) := by
  induction rows with
  | nil => exact ⟨[], rfl⟩
  | cons row rows ih =>
      obtain ⟨first, rest⟩ := List.forall_mem_cons.mp forms
      obtain ⟨a, rfl⟩ := exists_grid first
      obtain ⟨grids, rfl⟩ := ih rest
      exact ⟨a :: grids, rfl⟩

/-- Rows of one kind and one form are grids of this form. Without any rows the form may be chosen,
and the uniform one is. -/
theorem exists_common_form (kinds : ∀ row ∈ rows, row.kind = k)
    (forms : ∀ row ∈ rows, ∀ other ∈ rows, row.form = other.form) :
    ∃ (f : Form) (grids : List (Grid f.Element)),
      f.kind = k ∧ rows = grids.map (ofGrid f) ∧ (f.IsUniform ∨ grids ≠ []) := by
  cases rows with
  | nil => exact ⟨.uniform k, [], rfl, rfl, .inl rfl⟩
  | cons first rows =>
      obtain ⟨grids, same⟩ := exists_map_ofGrid fun row mem =>
        forms row mem first List.mem_cons_self
      refine ⟨first.form, grids, kinds first List.mem_cons_self, same, .inr fun empty => ?_⟩
      rw [empty] at same
      cases same

theorem map_itemGrid_rows (v : Value) : v.rows.map itemGrid = v.itemGrid.rows := by
  obtain ⟨f, a, rfl⟩ := v.exists_form
  rw [rows_ofGrid, itemGrid_ofGrid, Grid.rows_map, List.map_map]
  exact List.map_congr_left fun row _ => itemGrid_ofGrid row

theorem exists_grid_of_rank (h : v.grid.WellFormed) (axes : v.rank ≠ 0) :
    ∃ (f : Form) (a : Grid f.Element) (d : Int) (s : Shape),
      v = ofGrid f a ∧ a.WellFormed ∧ a.shape = d :: s := by
  obtain ⟨f, a, rfl⟩ := v.exists_form
  rw [grid_ofGrid_wellFormed] at h
  rw [rank_ofGrid, Grid.rank] at axes
  obtain ⟨d, s, shape⟩ := List.exists_cons_of_length_pos (Nat.pos_of_ne_zero axes)
  exact ⟨f, a, d, s, rfl, h, shape⟩

/-- A value is stacked from its rows. Its form cannot be seen from the rows if there are none, and
does not matter then. -/
theorem ofRows_rows (h : v.grid.WellFormed) (axes : v.rank ≠ 0) :
    ∃ w, ofRows v.kind v.grid.rowShape v.rows = .ok w ∧ w.loosen = v.loosen ∧
      (v.form.IsUniform ∨ v.rows ≠ [] → w = v) := by
  obtain ⟨f, a, d, s, rfl, h, shape⟩ := exists_grid_of_rank h axes
  have rowShape : (ofGrid f a).grid.rowShape = a.rowShape :=
    form_grid_ofGrid (fun _ b => b.rowShape) a
  have stacked : Grid.ofRows a.rowShape a.rows = .ok a := by
    rw [Grid.ofRows_eq_stacked fun row mem => Grid.shape_of_mem_rows mem,
      Grid.rowShape_of_shape shape, Grid.stacked_rows h shape]
  have loosened := loosen_ofRows f.kind a.rowShape (ofGrid f a).rows
  rw [map_itemGrid_rows, itemGrid_ofGrid, Grid.rows_map, Grid.ofRows_map, stacked] at loosened
  obtain ⟨w, result, loose⟩ := exists_of_map_eq_ok loosened
  rw [kind_ofGrid, rowShape, loosen_ofGrid, form_ofGrid]
  refine ⟨w, result, loose, fun form => ?_⟩
  rw [rows_ofGrid] at form result
  have held : f.IsUniform ∨ a.rows ≠ [] :=
    form.imp_right (mt fun empty => congrArg (List.map (ofGrid f)) empty)
  rw [ofRows_map_ofGrid _ held, stacked] at result
  exact (Except.ok.inj result).symm

theorem length_rows (h : v.grid.WellFormed) : Int.ofNat v.rows.length = v.rowCount := by
  rw [rows, List.length_map, Grid.length_rows]
  exact Int.toNat_of_nonneg h.rowCount_nonneg

theorem alike_rows (v : Value) : Shape.Alike (v.rows.map shape) := by
  have each : ∀ t ∈ v.rows.map shape, t = v.grid.rowShape := by
    refine List.forall_mem_map.mpr (List.forall_mem_map.mpr fun row mem => ?_)
    rw [shape_ofGrid, Grid.shape_of_mem_rows mem]
  exact Shape.alike_of_forall_eq each

theorem flatMap_itemGrid_rows (h : v.grid.WellFormed) (axes : v.rank ≠ 0) :
    (v.rows.flatMap fun row => row.itemGrid.items) = v.itemGrid.items := by
  obtain ⟨d, s, shape⟩ := List.exists_cons_of_length_pos (Nat.pos_of_ne_zero axes)
  have whole : v.itemGrid.WellFormed := h.map _
  rw [← Grid.flatMap_items_rows whole shape, ← map_itemGrid_rows, List.flatMap_map]

theorem rowAt_eq {i : Nat} (h : v.grid.WellFormed) (axes : v.rank ≠ 0) (there : i < v.rows.length) :
    v.rowAt (Int.ofNat i) = .ok v.rows[i] := by
  obtain ⟨f, a, d, s, rfl, h, shape⟩ := exists_grid_of_rank h axes
  have rows : (ofGrid f a).rows = (List.range d.toNat).map fun i => ofGrid f (a.cellAt [i]) := by
    rw [rows_ofGrid, Grid.rows_eq_map shape, List.map_map]
    rfl
  have bound : i < d.toNat := by
    rw [rows, List.length_map, List.length_range] at there
    exact there
  have row : (ofGrid f a).rowAt (Int.ofNat i) = .ok (ofGrid f (a.cellAt [i])) := by
    have whole : (ofGrid f a).rowAt (Int.ofNat i) = (do .ok (ofGrid f (← a.rowAt (Int.ofNat i)))) :=
      form_grid_ofGrid (fun g b => (do .ok (ofGrid g (← b.rowAt (Int.ofNat i)))) :
        (g : Form) → Grid g.Element → Except Error Value) a
    rw [whole, h.rowAt_eq shape bound]
    rfl
  rw [row]
  simp only [rows, List.getElem_map, List.getElem_range]

theorem map_shape_itemGrid (rows : List Value) :
    (rows.map itemGrid).map (·.shape) = rows.map shape :=
  List.map_map

theorem ofRows_of_alike (k : Kind) (s : Shape) (alike : Shape.Alike (rows.map shape)) :
    ∃ w, ofRows k s rows = .ok w ∧ w.kind = k ∧
      w.itemGrid = Grid.stacked ((rows.map shape).headD s) (rows.map itemGrid) := by
  have loosened := loosen_ofRows k s rows
  rw [← map_shape_itemGrid] at alike
  rw [Grid.ofRows_of_alike alike, map_shape_itemGrid] at loosened
  obtain ⟨w, result, loose⟩ := exists_of_map_eq_ok loosened
  exact ⟨w, result, mixed.inj loose⟩

theorem ofRows_of_not_alike (k : Kind) (s : Shape) (different : ¬ Shape.Alike (rows.map shape)) :
    ∃ first other, rows.head? = some first ∧ other ∈ rows ∧ first.shape ≠ other.shape ∧
      ofRows k s rows = .error (.shape (.rowShapes first.shape other.shape)) := by
  have loosened := loosen_ofRows k s rows
  rw [← map_shape_itemGrid] at different
  rcases (Grid.ofRows_spec s (rows.map itemGrid)).ok_or_error with
    ⟨-, -, alike, -⟩ | ⟨e, refused, a, b, front, mem, apart, rfl⟩
  · exact absurd alike different
  · rw [List.head?_map] at front
    obtain ⟨first, head, rfl⟩ := Option.map_eq_some_iff.mp front
    obtain ⟨other, there, rfl⟩ := List.mem_map.mp mem
    rw [refused] at loosened
    exact ⟨first, other, head, there, apart, eq_error_of_map_eq_error loosened⟩

/-- The rows of a value that is stacked from rows of its kind are these rows, as far as their
elements go. -/
theorem map_loosen_rows (alike : Shape.Alike (rows.map shape))
    (all : ∀ row ∈ rows, row.kind = k ∧ row.grid.WellFormed) (kind : w.kind = k)
    (items : w.itemGrid = Grid.stacked ((rows.map shape).headD s) (rows.map itemGrid)) :
    w.rows.map loosen = rows.map loosen := by
  have each : ∀ a ∈ rows.map itemGrid, a.WellFormed ∧ a.shape = (rows.map shape).headD s :=
    List.forall_mem_map.mpr fun row mem =>
      ⟨(all row mem).2.map _, alike.eq_headD (List.mem_map_of_mem mem)⟩
  have loose : w.loosen.rows = (rows.map itemGrid).map (mixed k) := by
    rw [loosen, kind, items]
    refine (rows_ofGrid (f := .mixed k) _).trans ?_
    rw [Grid.rows_stacked each]
    rfl
  rw [← rows_loosen, loose, List.map_map]
  refine List.map_congr_left fun row mem => ?_
  rw [loosen, (all row mem).1]
  rfl

/-- Rows of one form are even the same values. -/
theorem rows_of_ofRows (alike : Shape.Alike (rows.map shape))
    (all : ∀ row ∈ rows, row.kind = k ∧ row.grid.WellFormed)
    (forms : ∀ row ∈ rows, ∀ other ∈ rows, row.form = other.form)
    (result : ofRows k s rows = .ok w) : w.rows = rows := by
  obtain ⟨f, grids, rfl, rfl, form⟩ := exists_common_form (fun row mem => (all row mem).1) forms
  have shapes : (grids.map (ofGrid f)).map shape = grids.map (·.shape) := by
    rw [List.map_map]
    exact List.map_congr_left fun a _ => shape_ofGrid ..
  rw [shapes] at alike
  have each : ∀ a ∈ grids, a.WellFormed ∧ a.shape = (grids.map (·.shape)).headD s := fun a there =>
    ⟨(grid_ofGrid_wellFormed a).mp (all _ (List.mem_map_of_mem there)).2,
      alike.eq_headD (List.mem_map_of_mem there)⟩
  rw [ofRows_map_ofGrid s form, Grid.ofRows_of_alike alike] at result
  rw [← Except.ok.inj result, rows_ofGrid, Grid.rows_stacked each]

/-- What is stacked has the elements of all the rows. -/
theorem items_of_ofRows (result : ofRows k s rows = .ok w) :
    Shape.Alike (rows.map shape) ∧
      w.itemGrid.items = rows.flatMap fun row => row.itemGrid.items := by
  by_cases alike : Shape.Alike (rows.map shape)
  · obtain ⟨w', again, -, items⟩ := ofRows_of_alike k s alike
    obtain rfl := Except.ok.inj (result.symm.trans again)
    refine ⟨alike, ?_⟩
    rw [items, Grid.stacked, List.flatMap_map]
  · obtain ⟨_, _, _, _, _, refused⟩ := ofRows_of_not_alike k s alike
    cases result.symm.trans refused

section Buffers

open Buffer (Command Pool Separate Table)

variable {target source : String} {names : List String}

/-- Cut the rows of a value out of its buffer, each under a name of its own. -/
def cutCommands (source : String) (names : List String) (v : Value) : List (Command (Item Value)) :=
  Command.cutFrom 0 (Shape.size v.grid.rowShape) source names

/-- The rows before the first one that is not shaped like the one at the front. -/
def leading (rows : List Value) : List Value :=
  rows.takeWhile fun row => some row.shape = rows.head?.map shape

/-- Extend a new buffer by those of the rows, which have the given names. Nothing is done any more
when a row has another shape than the first. -/
def stackCommands (target : String) (names : List String) (rows : List Value) :
    List (Command (Item Value)) :=
  match rows.head? with
  | none => [.create target []]
  | some first =>
    .reserve target (Int.ofNat (rows.length * first.elementCount)) ::
      (names.take (leading rows).length).map fun name => .extend target (.buffer name)

theorem take_length_leading (rows : List Value) :
    rows.take (leading rows).length = leading rows :=
  (List.prefix_iff_eq_take.mp (List.takeWhile_prefix _)).symm

theorem leading_eq_self (alike : Shape.Alike (rows.map shape)) : leading rows = rows := by
  refine List.takeWhile_eq_self_iff.mpr fun row mem => decide_eq_true ?_
  cases rows with
  | nil => cases mem
  | cons first rows =>
      exact congrArg some (alike _ (List.mem_map_of_mem mem) _ List.mem_cons_self)

theorem step_reserve {s : Separate (Item Value)} (capacity : Nat) :
    s.step (.reserve target (Int.ofNat capacity)) = (s.put target [], .ok .nothing) := by
  have room : ¬ Int.ofNat capacity < 0 := Int.not_lt.mpr (Int.natCast_nonneg capacity)
  rw [Separate.step, Buffer.checkCapacity, if_neg room]
  rfl

theorem makes_stackCommands {s : Separate (Item Value)} (new : target ∉ names)
    (lent : List.Forall₂ (fun name part => s.get? name = some part) names
      (rows.map fun row => row.itemGrid.items)) :
    s.Makes (stackCommands target names rows) target
      ((leading rows).flatMap fun row => row.itemGrid.items) := by
  cases rows with
  | nil => exact .single rfl
  | cons first rows =>
      have still : List.Forall₂
          (fun name part => Table.get? (s.put target []) name = some part) _ _ :=
        Separate.forall₂_get?_put new lent
      -- The names of the leading rows are as many of the names, from the first one on.
      have taken := List.forall₂_take (leading (first :: rows)).length still
      rw [← List.map_take, take_length_leading] at taken
      have whole := Separate.makes_extendEach (fun mem => new (List.mem_of_mem_take mem))
        Table.get?_put_self taken
      rw [List.nil_append, ← List.flatMap_def] at whole
      exact .cons (step_reserve _) whole

theorem run_cutCommands {p : Pool (Item Value)} (consistent : Pool.Consistent p)
    (h : v.grid.WellFormed) (distinct : names.Nodup) (new : source ∉ names)
    (length : names.length = v.rows.length)
    (found : p.shown.get? source = some v.itemGrid.items) :
    let cut := p.run (v.cutCommands source names)
    Pool.Consistent cut.1 ∧ (∀ answer ∈ cut.2, answer = .ok .nothing) ∧
      p.shown.Gains cut.1.shown names (v.rows.map fun row => row.itemGrid.items) := by
  have whole : v.itemGrid.WellFormed := h.map _
  have size : Shape.size v.grid.rowShape = Int.ofNat v.itemGrid.rowSize :=
    (Int.toNat_of_nonneg (Shape.size_nonneg h.natural.tail)).symm
  have count : names.length = v.itemGrid.rowCount.toNat := by
    rw [length, ← List.length_map itemGrid, map_itemGrid_rows, Grid.length_rows]
  have parts : (v.rows.map fun row => row.itemGrid.items) =
      pieces v.itemGrid.rowSize names.length v.itemGrid.items := by
    rw [count, ← Grid.map_items_rows, ← map_itemGrid_rows, List.map_map]
    rfl
  rw [cutCommands, size, parts]
  refine Pool.run_cutFrom_zero consistent distinct new found (Nat.le_of_eq ?_)
  rw [count, whole.length_eq_rows]

/-- Stacking the rows of a value with axes gives this value, and its rows are found by their
positions. Rows of one kind are stacked exactly if all of them have one shape, and then they are the
rows of what is stacked. Of values that are not uniform this holds as far as their elements go.

In buffers the rows of a value are slices of its own. A new buffer that is extended by those of the
rows shows the elements of what is stacked, and leaves all other buffers alone whether the rows can
be stacked or not. -/
theorem cutting_and_stacking_inverse {k : Kind} (h : v.grid.WellFormed) (axes : v.rank ≠ 0)
    (all : ∀ row ∈ rows, row.kind = k ∧ row.grid.WellFormed) (rowShape : Shape) :
    (∃ w, ofRows v.kind v.grid.rowShape v.rows = .ok w ∧ w.loosen = v.loosen ∧
      (v.form.IsUniform ∨ v.rows ≠ [] → w = v)) ∧
    Int.ofNat v.rows.length = v.rowCount ∧
    (∀ i (there : i < v.rows.length), v.rowAt (Int.ofNat i) = .ok v.rows[i]) ∧
    (Shape.Alike (rows.map shape) → ∃ w, ofRows k rowShape rows = .ok w ∧ w.kind = k ∧
      w.shape = Int.ofNat rows.length :: (rows.map shape).headD rowShape ∧
      w.rows.map loosen = rows.map loosen ∧
      ((∀ row ∈ rows, ∀ other ∈ rows, row.form = other.form) → w.rows = rows)) ∧
    (¬ Shape.Alike (rows.map shape) → ∃ first other,
      rows.head? = some first ∧ other ∈ rows ∧ first.shape ≠ other.shape ∧
      ofRows k rowShape rows = .error (.shape (.rowShapes first.shape other.shape))) ∧
    ∀ (before : List (Command (Item Value))) (target : String) (names : List String),
      let p := (Pool.empty.run before).1
      target ∉ names →
        (∀ source, source ∉ names → names.Nodup → names.length = v.rows.length →
          p.shown.get? source = some v.itemGrid.items →
            let cut := p.run (v.cutCommands source names)
            (∀ answer ∈ cut.2, answer = .ok .nothing) ∧
            p.shown.Gains cut.1.shown names (v.rows.map fun row => row.itemGrid.items) ∧
            cut.1.Makes (stackCommands target names v.rows) target v.itemGrid.items) ∧
        (List.Forall₂ (fun name part => p.shown.get? name = some part) names
            (rows.map fun row => row.itemGrid.items) →
          ∃ left, p.Makes (stackCommands target names rows) target left ∧
            ∀ w, ofRows k rowShape rows = .ok w → w.itemGrid.items = left) := by
  refine ⟨ofRows_rows h axes, length_rows h, fun i there => rowAt_eq h axes there, ?_,
    ofRows_of_not_alike k rowShape, ?_⟩
  · intro alike
    obtain ⟨w, result, kind, items⟩ := ofRows_of_alike k rowShape alike
    have shape : w.shape = Int.ofNat rows.length :: (rows.map shape).headD rowShape := by
      rw [← shape_itemGrid, items, Grid.stacked, List.length_map]
    exact ⟨w, result, kind, shape, map_loosen_rows alike all kind items, fun forms =>
      rows_of_ofRows alike all forms result⟩
  · intro before target names p new
    have consistent : p.Consistent := Pool.consistent_run_empty before
    constructor
    · intro source apart distinct length found cut
      obtain ⟨still, granted, gains⟩ := run_cutCommands consistent h distinct apart length found
      have made := makes_stackCommands new gains.gained
      rw [leading_eq_self (alike_rows v), flatMap_itemGrid_rows h axes] at made
      exact ⟨granted, gains, Pool.makes_of_shown still made⟩
    · intro lent
      have made := makes_stackCommands new lent
      refine ⟨_, Pool.makes_of_shown consistent made, fun w result => ?_⟩
      obtain ⟨alike, items⟩ := items_of_ofRows result
      rw [items, leading_eq_self alike]

/-- A page is cut into its lines and put together from them. Lines without any letters are kept
apart as well. -/
theorem page_cut_into_lines :
    let page : Value := .character ⟨[2, 2], ['s', 'o', 'o', 'n']⟩
    let line : Value := .character ⟨[2], ['o', 'n']⟩
    let blank : Value := .character ⟨[0], []⟩
    let p := (Pool.empty.run [.create "page" page.itemGrid.items]).1
    let cut := (p.run (page.cutCommands "page" ["first", "second"])).1
    page.grid.WellFormed ∧ page.rank ≠ 0 ∧
      (∀ row ∈ [blank, blank], row.kind = .character ∧ row.grid.WellFormed) ∧
      ofRows .character [2] page.rows = .ok page ∧ page.rowAt 1 = .ok line ∧
      ofRows .character [] [blank, blank] = .ok (.character ⟨[2, 0], []⟩) ∧
      (Value.character ⟨[2, 0], []⟩).rows = [blank, blank] ∧
      cut.shown.get? "second" = some line.itemGrid.items ∧
      (cut.run (stackCommands "copy" ["first", "second"] page.rows)).1.shown.get? "copy" =
        some page.itemGrid.items := by
  intro page line blank p cut
  have h : page.grid.WellFormed := by decide
  have axes : page.rank ≠ 0 := by decide
  have all : ∀ row ∈ [blank, blank], row.kind = .character ∧ row.grid.WellFormed := by
    simp only [List.forall_mem_cons]
    decide
  obtain ⟨⟨w, restacked, -, restored⟩, -, rowsAt, stacking, -, buffers⟩ :=
    cutting_and_stacking_inverse h axes all []
  obtain rfl := restored (.inl rfl)
  obtain ⟨u, stacked, -, -, -, same⟩ := stacking (by simp [Shape.Alike])
  obtain rfl : Value.character ⟨[2, 0], []⟩ = u := Except.ok.inj stacked
  have shown : p.shown.get? "page" = some page.itemGrid.items := rfl
  obtain ⟨cutting, -⟩ :=
    buffers [.create "page" page.itemGrid.items] "copy" ["first", "second"] (by decide)
  obtain ⟨-, gains, made⟩ := cutting "page" (by decide) (by decide) rfl shown
  have second : cut.shown.get? "second" = some line.itemGrid.items := by
    cases gains.gained with
    | cons _ rest =>
        cases rest with
        | cons second _ => exact second
  exact ⟨h, axes, all, restacked, rowsAt 1 (by decide), stacked, same (by simp), second, made.made⟩

end Buffers

end Value

end RowMajor
