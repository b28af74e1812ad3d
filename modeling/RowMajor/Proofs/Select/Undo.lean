import RowMajor.Proofs.Operations.Select
import RowMajor.Proofs.Pick.Undo

/-!
# Selecting and writing back

An index names a row as a point with one component leads to a cell, so what is known of cells
that are picked and written over holds of rows. The one exception is a grid without axes, which
counts as a single row but has no axis along which it could be found. It is looked at as the
vector of its one element (`Grid.asRows`).
-/

namespace RowMajor

variable {α β : Type}

/-- The indices name the rows, one by one. -/
def Names (rows : Int) (indices : List Int) (places : List Nat) : Prop :=
  indices.map (resolveIndex · rows) = places.map some

namespace Names

variable {rows i : Int} {indices : List Int} {places : List Nat} {p : Nat}

theorem cons_iff : Names rows (i :: indices) (p :: places) ↔
    resolveIndex i rows = some p ∧ Names rows indices places :=
  List.cons.injEq .. ▸ Iff.rfl

/-- Indices within bounds name rows. -/
theorem exists_of_within (within : ∀ i ∈ indices, -rows ≤ i ∧ i < rows) :
    ∃ places, Names rows indices places := by
  induction indices with
  | nil => exact ⟨[], rfl⟩
  | cons i indices ih =>
      obtain ⟨above, below⟩ := within i List.mem_cons_self
      have inside : ¬ (i < -rows ∨ rows ≤ i) := by omega
      obtain ⟨places, named⟩ := ih fun j mem => within j (List.mem_cons_of_mem _ mem)
      exact ⟨_ :: places, cons_iff.mpr ⟨if_neg inside, named⟩⟩

/-- Natural numbers below the number of rows name the rows that they count. -/
theorem map_ofNat (within : ∀ p ∈ places, Int.ofNat p < rows) :
    Names rows (places.map Int.ofNat) places := by
  have resolved (p : Nat) (mem : p ∈ places) : resolveIndex (Int.ofNat p) rows = some p := by
    have below := within p mem
    have inside : ¬ (Int.ofNat p < -rows ∨ rows ≤ Int.ofNat p) := by
      simp only [Int.ofNat_eq_natCast] at below ⊢
      omega
    rw [resolveIndex, if_neg inside]
    rfl
  rw [Names, List.map_map]
  exact List.map_congr_left resolved

theorem exists_index (named : Names rows indices places) (mem : p ∈ places) :
    ∃ i ∈ indices, resolveIndex i rows = some p := by
  have there : some p ∈ indices.map (resolveIndex · rows) := named ▸ List.mem_map_of_mem mem
  exact List.mem_map.mp there

theorem lt_rows (named : Names rows indices places) (mem : p ∈ places) : Int.ofNat p < rows := by
  obtain ⟨i, -, resolved⟩ := named.exists_index mem
  exact resolveIndex_lt resolved

theorem nodup_iff (named : Names rows indices places) :
    (indices.map (resolveIndex · rows)).Nodup ↔ places.Nodup := by
  rw [named]
  exact List.nodup_map_iff fun _ _ => Option.some.inj

/-- A step for every index goes by the row that it names. -/
theorem mapM_eq {f : Int → Except Error β} {g : Nat → β} (named : Names rows indices places)
    (each : ∀ i p, resolveIndex i rows = some p → f i = .ok (g p)) :
    indices.mapM f = .ok (places.map g) := by
  induction indices generalizing places with
  | nil =>
      obtain rfl : places = [] := List.map_eq_nil_iff.mp named.symm
      rfl
  | cons i indices ih =>
      cases places with
      | nil => cases named
      | cons p places =>
          obtain ⟨here, below⟩ := cons_iff.mp named
          rw [List.mapM_cons, each i p here, ih below]
          rfl

end Names

theorem nodup_singletons {places : List Nat} :
    (places.map ([·])).Nodup ↔ places.Nodup :=
  List.nodup_map_iff fun _ _ same => List.singleton_inj.mp same

namespace Grid

variable {a : Grid α} {index : Grid Int} {places : List Nat} {cells : List (List α)}

/-- The rows of a grid, one behind another. This makes a vector of a grid without axes and
changes no other. -/
def asRows (a : Grid α) : Grid α :=
  ⟨a.rowCount :: a.rowShape, a.items⟩

theorem rows_asRows (a : Grid α) : a.asRows.rows = a.rows := by
  obtain ⟨s, items⟩ := a
  cases s <;> rfl

theorem WellFormed.asRows (h : a.WellFormed) : a.asRows.WellFormed := by
  refine wellFormed_iff.mpr ⟨(Shape.natural_cons ..).mpr
    ⟨h.rowCount_nonneg, h.natural_rowShape⟩, ?_⟩
  exact h.length_eq.trans (Shape.cellCount_headD_tail a.shape).symm

/-- Each index as a point with one component. -/
def asPoints (index : Grid Int) : Grid Int :=
  ⟨index.shape ++ [1], index.items⟩

theorem toPoints_asPoints (index : Grid Int) :
    index.asPoints.toPoints = ⟨index.shape, 1, index.items⟩ := by
  rw [toPoints, asPoints, List.dropLast_concat, List.getLastD_concat]

theorem WellFormed.asPoints (wf : index.WellFormed) : index.asPoints.WellFormed := by
  refine wellFormed_iff.mpr ⟨wf.natural.append (Shape.natural_replicate_one 1), ?_⟩
  rw [Grid.asPoints, Shape.cellCount_append, wf.length_eq]
  exact (Nat.mul_one _).symm

theorem toList_asPoints (wf : index.WellFormed) :
    index.asPoints.toPoints.toList = index.items.map ([·]) := by
  rw [toPoints_asPoints, Points.toList, ← Shape.cellCount_eq_volume wf.natural, ← wf.length_eq]
  exact pieces_one index.items

/-- An index names a row where it leads to the cell as a point. -/
theorem lead_asPoints (wf : index.WellFormed) (named : Names a.rowCount index.items places) :
    a.asRows.shape.Lead index.asPoints.toPoints.toList (places.map ([·])) := by
  have leads (i : Int) :
      a.asRows.shape.place? [i] = (resolveIndex i a.rowCount).map ([·]) := by
    rw [asRows, Shape.place?]
    cases resolveIndex i a.rowCount with
    | none => rfl
    | some p => exact congrArg (Option.map (p :: ·)) (Shape.place?_nil a.rowShape)
  have along := congrArg (List.map (Option.map ([·]))) named
  rw [List.map_map, List.map_map] at along
  rw [Shape.Lead, toList_asPoints wf, List.map_map, List.map_map]
  exact (List.map_congr_left fun i _ => leads i).trans along

/-- The rows that are named, in the arrangement of the indices. -/
def rowsAt (a : Grid α) (index : Grid Int) (places : List Nat) : Grid α :=
  a.asRows.cellsAt index.asPoints.toPoints (places.map ([·]))

theorem shape_rowsAt (a : Grid α) (index : Grid Int) (places : List Nat) :
    (a.rowsAt index places).shape = index.shape ++ a.rowShape := by
  rw [rowsAt, cellsAt, toPoints_asPoints]
  rfl

theorem items_rowsAt (a : Grid α) (index : Grid Int) (places : List Nat) :
    (a.rowsAt index places).items = places.flatMap fun p => (a.asRows.cellAt [p]).items := by
  rw [rowsAt, cellsAt, toPoints_asPoints, List.flatMap_map]

/-- The named rows written over with rows whose elements are given one behind another. -/
def writeRows (a : Grid α) (places : List Nat) (items : List α) : Grid α :=
  a.writeCells (places.map ([·])) (pieces a.rowSize places.length items)

@[simp] theorem shape_writeRows (a : Grid α) (places : List Nat) (items : List α) :
    (a.writeRows places items).shape = a.shape := rfl

/-- Selecting without a fill element gives the rows that the indices name. -/
theorem select_eq {why : MissingFill} (wf : index.WellFormed) (h : a.WellFormed)
    (named : Names a.rowCount index.items places) :
    select (.error why) index a = .ok (a.rowsAt index places) := by
  have size : ¬ Shape.size a.rowShape < 0 :=
    Int.not_lt.mpr (Shape.size_nonneg h.natural_rowShape)
  have each : ∀ i p, resolveIndex i a.rowCount = some p →
      a.selectRow (.error why) i = .ok (a.asRows.cellAt [p]).items := by
    intro i p resolved
    rw [selectRow, if_neg size, resolved, items_row (a := a.asRows) rfl]
    rfl
  rw [select_eq_mapM _ a wf]
  rw [named.mapM_eq each]
  show Except.ok _ = _
  congr 1
  rw [rowsAt, cellsAt, toPoints_asPoints, List.flatMap_map, List.flatMap_def]
  rfl

/-- Rows can be written over if the indices name different ones and there is a row for each. -/
theorem unselect_eq {selected into : Grid α} (named : Names into.rowCount index.items places) :
    unselect index selected into =
      if ¬ places.Nodup then .error (.inverse (.duplicates .select))
      else if selected.shape ≠ index.shape ++ into.rowShape then
        .error (.inverse (.gatheredShape .select (index.shape ++ into.rowShape) selected.shape))
      else .ok (into.writeRows places selected.items) := by
  have each : ∀ i p, resolveIndex i into.rowCount = some p →
      into.rowPlace i = .ok (id p) := by
    intro i p resolved
    rw [rowPlace, resolved]
    rfl
  rw [unselect, named.mapM_eq each, List.map_id]
  rfl

/-- Rows stand at the same places in a grid and among its rows. -/
theorem asRows_writeCells (inside : ∀ p ∈ places, Int.ofNat p < a.rowCount) :
    (a.writeCells (places.map ([·])) cells).asRows =
      a.asRows.writeCells (places.map ([·])) cells := by
  obtain ⟨s, items⟩ := a
  cases s with
  | cons d s => rfl
  | nil =>
      have same : ∀ written : List α, ∀ w ∈ (places.map ([·])).zip cells,
          splice (Shape.offset [] w.1) w.2 written = splice (Shape.offset [1] w.1) w.2 written := by
        intro written w mem
        obtain ⟨p, there, place⟩ := List.mem_map.mp (List.of_mem_zip mem).1
        have only : p = 0 := by
          have below : Int.ofNat p < 1 := inside p there
          simp only [Int.ofNat_eq_natCast] at below
          omega
        rw [← place, only]
        rfl
      exact congrArg (Grid.mk [1]) (List.foldl_ext _ _ _ same)

/-- What has to be right for rows to be written back to the given places. -/
structure CanUnselect (index : Grid Int) (selected into : Grid α) (places : List Nat) : Prop where
  named : Names into.rowCount index.items places
  nodup : places.Nodup
  shape : selected.shape = index.shape ++ into.rowShape

section Writing

variable {b selected : Grid α}

theorem CanUnselect.canUnpick (can : CanUnselect index selected a places)
    (wf : index.WellFormed) :
    CanUnpick index.asPoints.toPoints selected a.asRows (places.map ([·])) := by
  refine ⟨?_, ?_, lead_asPoints wf can.named, nodup_singletons.mpr can.nodup⟩
  · rw [toPoints_asPoints]
    rintro ⟨none, -⟩
    cases none
  · rw [toPoints_asPoints]
    exact can.shape

theorem asRows_writeRows (named : Names a.rowCount index.items places) (items : List α) :
    (a.writeRows places items).asRows = a.asRows.writeCells (places.map ([·]))
      (pieces (Shape.volume (a.asRows.shape.back index.asPoints.toPoints.width))
        (places.map ([·])).length items) := by
  rw [toPoints_asPoints, List.length_map]
  exact asRows_writeCells fun p => named.lt_rows

theorem eq_of_asRows (shape : a.shape = b.shape) (rows : a.asRows = b.asRows) : a = b := by
  obtain ⟨s, items⟩ := a
  obtain ⟨t, others⟩ := b
  obtain rfl : s = t := shape
  exact congrArg (Grid.mk s) (Grid.mk.inj rows).2

theorem wellFormed_of_asRows (natural : a.shape.Natural) (h : a.asRows.WellFormed) :
    a.WellFormed :=
  wellFormed_iff.mpr ⟨natural, h.length_eq.trans (Shape.cellCount_headD_tail a.shape)⟩

/-- Writing the rows that are there changes nothing. -/
theorem writeRows_rowsAt (wf : index.WellFormed) (h : a.WellFormed)
    (named : Names a.rowCount index.items places) :
    a.writeRows places (a.rowsAt index places).items = a := by
  have lead := lead_asPoints wf named
  refine eq_of_asRows rfl ?_
  rw [asRows_writeRows named, rowsAt, pieces_cellsAt wf.asPoints h.asRows lead,
    writeCells_cellAt h.asRows (lies_of_lead wf.asPoints lead)]

theorem CanUnselect.wellFormed (can : CanUnselect index selected a places)
    (wf : index.WellFormed) (hs : selected.WellFormed) (h : a.WellFormed) :
    (a.writeRows places selected.items).WellFormed := by
  refine wellFormed_of_asRows h.natural ?_
  rw [asRows_writeRows can.named]
  exact h.asRows.writeCells ((can.canUnpick wf).fits wf.asPoints hs h.asRows)

/-- The rows that were written are those that are found. -/
theorem CanUnselect.rowsAt_writeRows (can : CanUnselect index selected a places)
    (wf : index.WellFormed) (hs : selected.WellFormed) (h : a.WellFormed) :
    (a.writeRows places selected.items).rowsAt index places = selected := by
  rw [rowsAt, asRows_writeRows can.named]
  exact (can.canUnpick wf).cellsAt_writeCells wf.asPoints hs h.asRows

/-- The other rows have not changed. -/
theorem CanUnselect.getElem?_rows (can : CanUnselect index selected a places) {j : Nat}
    (wf : index.WellFormed) (hs : selected.WellFormed) (h : a.WellFormed) (apart : j ∉ places) :
    (a.writeRows places selected.items).rows[j]? = a.rows[j]? := by
  have fits := (can.canUnpick wf).fits wf.asPoints hs h.asRows
  rw [← rows_asRows, ← rows_asRows a, asRows_writeRows can.named,
    rows_eq_map (a := a.asRows) rfl, rows_eq_map (a := Grid.writeCells _ _ a.asRows) rfl,
    List.getElem?_map, List.getElem?_map]
  by_cases there : j < a.rowCount.toNat
  · have lies : LiesIn a.asRows.shape 1 [j] :=
      ⟨rfl, Nat.succ_le_succ (Nat.zero_le _), contains_row (a := a.asRows) rfl there⟩
    rw [List.getElem?_range there]
    refine congrArg some (cellAt_congr (h.asRows.writeCells fits) h.asRows rfl lies
      fun index mem => ?_)
    refine get?_writeCells_of_not_prefix h.asRows fits mem fun place mem before => ?_
    obtain ⟨p, written, rfl⟩ := List.mem_map.mp mem
    obtain rfl : p = j := (List.cons_prefix_cons.mp before).1
    exact apart written
  · rw [List.getElem?_eq_none (by rw [List.length_range]; exact Nat.not_lt.mp there)]
    rfl

end Writing

end Grid

section Operations

variable {index : Operand} {table : Grid Int} {f : Form} {a : Grid f.Element} {places : List Nat}

/-- Selecting goes by the grid that is left after promotion. -/
theorem select_promoted {v : Value} {fill : Fill}
    (read : index.asIntegerGrid .indexTable = .ok table)
    (promoted : v.promoteFor fill = .ok (.ofGrid f a)) :
    select index (.value v) fill = (do
      .ok (.ofGrid f (← Grid.select (fill.filler f) table a))) := by
  have whole : select index (.value v) fill =
      index.asIntegerGrid .indexTable >>= fun table => v.select fill table := rfl
  rw [whole, read]
  show v.select fill table = _
  rw [Value.select, promoted]
  exact Value.form_grid_ofGrid (γ := Except Error Value) (fun g b => do
    .ok (.ofGrid g (← Grid.select (fill.filler g) table b))) a

/-- The rows that are selected of a value without a fill value. -/
theorem select_ofGrid (read : index.asIntegerGrid .indexTable = .ok table) (wf : table.WellFormed)
    (h : a.WellFormed) (named : Names a.rowCount table.items places) :
    select index (.value (.ofGrid f a)) .none = .ok (.ofGrid f (a.rowsAt table places)) := by
  have absent : Fill.none.filler f = .error .absent := rfl
  rw [select_promoted read (Value.promoteFor_none _), absent, Grid.select_eq wf h named]
  rfl

theorem unselect_ofGrid (read : index.asIntegerGrid .indexTable = .ok table)
    (selected into : Grid f.Element) :
    unselect (.value (.ofGrid f selected)) index (.value (.ofGrid f into)) = (do
      .ok (.ofGrid f (← Grid.unselect table selected into))) := by
  have whole : unselect (.value (.ofGrid f selected)) index (.value (.ofGrid f into)) =
      index.asIntegerGrid .indexTable >>= fun table =>
        Value.unselect table (.ofGrid f selected) (.ofGrid f into) := rfl
  rw [whole, read]
  show Value.unselect table (.ofGrid f selected) (.ofGrid f into) = _
  rw [Value.unselect, Value.unify_ofGrid]
  rfl

theorem unselect_ofGrid_of_nodup {selected : Grid f.Element}
    (read : index.asIntegerGrid .indexTable = .ok table)
    (can : Grid.CanUnselect table selected a places) :
    unselect (.value (.ofGrid f selected)) index (.value (.ofGrid f a)) =
      .ok (.ofGrid f (a.writeRows places selected.items)) := by
  rw [unselect_ofGrid read, Grid.unselect_eq can.named, if_neg (not_not_intro can.nodup),
    if_neg (not_not_intro can.shape)]
  rfl

/-- Rows that were selected by indices of different rows can be written back, and so can any
others of their shape: they are then what selecting finds, and no other row has changed. Indices
that name a row twice are refused. -/
theorem unselect_undoes_select {index : Operand} {table : Grid Int} {a : Value}
    (read : index.asIntegerGrid .indexTable = .ok table) (wf : table.WellFormed)
    (h : a.grid.WellFormed) (within : ∀ i ∈ table.items, -a.rowCount ≤ i ∧ i < a.rowCount) :
    ((table.items.map (resolveIndex · a.rowCount)).Nodup →
      ∃ c, select index (.value a) .none = .ok c ∧ c.form = a.form ∧
        unselect (.value c) index (.value a) = .ok a ∧
        ∀ s : Value, s.grid.WellFormed → s.form = c.form → s.shape = c.shape →
          ∃ r, unselect (.value s) index (.value a) = .ok r ∧ r.shape = a.shape ∧
            select index (.value r) .none = .ok s ∧
            ∀ j, (∀ i ∈ table.items, resolveIndex i a.rowCount ≠ some j) →
              r.rows[j]? = a.rows[j]?) ∧
    (¬ (table.items.map (resolveIndex · a.rowCount)).Nodup →
      ∀ s : Value, s.form = a.form →
        unselect (.value s) index (.value a) = .error (.inverse (.duplicates .select))) := by
  obtain ⟨f, a, rfl⟩ := a.exists_form
  rw [Value.grid_ofGrid_wellFormed] at h
  rw [Value.rowCount_ofGrid] at within ⊢
  obtain ⟨places, named⟩ := Names.exists_of_within within
  rw [named.nodup_iff]
  constructor
  · intro nodup
    have can {s : Grid f.Element} (shape : s.shape = table.shape ++ a.rowShape) :
        Grid.CanUnselect table s a places := ⟨named, nodup, shape⟩
    refine ⟨_, select_ofGrid read wf h named, ?_, ?_, ?_⟩
    · rw [Value.form_ofGrid, Value.form_ofGrid]
    · rw [unselect_ofGrid_of_nodup read (can (Grid.shape_rowsAt ..)),
        Grid.writeRows_rowsAt wf h named]
    · intro s hs sameForm sameShape
      obtain ⟨s, rfl⟩ := Value.exists_grid (sameForm.trans (Value.form_ofGrid f _))
      rw [Value.grid_ofGrid_wellFormed] at hs
      rw [Value.shape_ofGrid, Value.shape_ofGrid, Grid.shape_rowsAt] at sameShape
      have can := can sameShape
      refine ⟨_, unselect_ofGrid_of_nodup read can, ?_, ?_, ?_⟩
      · rw [Value.shape_ofGrid, Value.shape_ofGrid, Grid.shape_writeRows]
      · rw [select_ofGrid read wf (can.wellFormed wf hs h) named, can.rowsAt_writeRows wf hs h]
      · intro j unnamed
        have apart : j ∉ places := fun mem => by
          obtain ⟨i, there, resolved⟩ := named.exists_index mem
          exact unnamed i there resolved
        exact Value.getElem?_rows_ofGrid (can.getElem?_rows wf hs h apart)
  · intro twice s sameForm
    obtain ⟨s, rfl⟩ := Value.exists_grid (sameForm.trans (Value.form_ofGrid f a))
    rw [unselect_ofGrid read, Grid.unselect_eq named, if_pos twice]
    rfl

/-- Two letters of three are replaced, one of them counted from the end. The first letter cannot be
named from both ends. -/
theorem unselect_letters :
    let index : Operand := .value (.number (.vector [.ofSmallInt 2, .ofSmallInt (-3)]))
    let twice : Operand := .value (.number (.vector [.ofSmallInt 0, .ofSmallInt (-3)]))
    let a : Value := .character ⟨[3], ['a', 'b', 'c']⟩
    let c : Value := .character ⟨[2], ['c', 'a']⟩
    index.asIntegerGrid .indexTable = .ok (.vector [2, -3]) ∧
      twice.asIntegerGrid .indexTable = .ok (.vector [0, -3]) ∧
      (Grid.vector [(2 : Int), -3]).WellFormed ∧ (Grid.vector [(0 : Int), -3]).WellFormed ∧
      a.grid.WellFormed ∧ (∀ i ∈ [(2 : Int), -3], -a.rowCount ≤ i ∧ i < a.rowCount) ∧
      (∀ i ∈ [(0 : Int), -3], -a.rowCount ≤ i ∧ i < a.rowCount) ∧
      ([2, -3].map (resolveIndex · a.rowCount)).Nodup ∧
      ¬ ([0, -3].map (resolveIndex · a.rowCount)).Nodup ∧
      select index (.value a) .none = .ok c ∧ unselect (.value c) index (.value a) = .ok a ∧
      (∀ s : Value, s.grid.WellFormed → s.form = c.form → s.shape = c.shape →
        ∃ r, unselect (.value s) index (.value a) = .ok r ∧ r.shape = a.shape ∧
          select index (.value r) .none = .ok s ∧
          ∀ j, (∀ i ∈ [2, -3], resolveIndex i a.rowCount ≠ some j) → r.rows[j]? = a.rows[j]?) ∧
      ∀ s : Value, s.form = a.form →
        unselect (.value s) twice (.value a) = .error (.inverse (.duplicates .select)) := by
  intro index twice a c
  have zero : (Binary64.ofSmallInt 0).toInt? = some 0 := by decide +kernel
  have two : (Binary64.ofSmallInt 2).toInt? = some 2 := by decide +kernel
  have last : (Binary64.ofSmallInt (-3)).toInt? = some (-3) := by decide +kernel
  have read : index.asIntegerGrid .indexTable = .ok (.vector [2, -3]) := by
    refine Operand.asIntegerGrid_numbers ?_
    rw [List.mapM_cons, List.mapM_cons, Binary64.integer, Binary64.integer, two, last]
    rfl
  have again : twice.asIntegerGrid .indexTable = .ok (.vector [0, -3]) := by
    refine Operand.asIntegerGrid_numbers ?_
    rw [List.mapM_cons, List.mapM_cons, Binary64.integer, Binary64.integer, zero, last]
    rfl
  have h : a.grid.WellFormed := by decide
  have within : ∀ i ∈ [(2 : Int), -3], -a.rowCount ≤ i ∧ i < a.rowCount := by decide
  have inside : ∀ i ∈ [(0 : Int), -3], -a.rowCount ≤ i ∧ i < a.rowCount := by decide
  have apart : ([2, -3].map (resolveIndex · a.rowCount)).Nodup := by decide
  have repeated : ¬ ([0, -3].map (resolveIndex · a.rowCount)).Nodup := by decide
  have wf := Grid.wellFormed_vector [(2 : Int), -3]
  have wf' := Grid.wellFormed_vector [(0 : Int), -3]
  have named : Names a.rowCount [2, -3] [2, 0] := rfl
  have found : select index (.value a) .none = .ok c :=
    select_ofGrid (f := .uniform .character) read wf h named
  obtain ⟨_, selected, -, undone, others⟩ := (unselect_undoes_select read wf h within).1 apart
  obtain rfl := Except.ok.inj (found.symm.trans selected)
  exact ⟨read, again, wf, wf', h, within, inside, apart, repeated, found, undone, others,
    (unselect_undoes_select again wf' h inside).2 repeated⟩

end Operations

end RowMajor
