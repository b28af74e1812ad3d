import RowMajor.Proofs.Pick.Filling
import RowMajor.Proofs.Select.Undo

/-!
# Selecting as picking

An index selects the row that it picks as a point with one component. The indices of an array are
followed in the order of these points, and the first that is out of bounds is refused in the same
way by both, as one along the leading axis. Only an array without axes has a row to select and none
to pick.
-/

namespace RowMajor

variable {α : Type}

namespace Grid

variable {index : Grid Int} {a : Grid α} {filler : Filler α}

/-- The row at an index is the cell below the point with this component alone. -/
theorem pickPoint_singleton (kind : Kind) (h : a.WellFormed) (axes : a.rank ≠ 0) (i : Int) :
    a.pickPoint kind filler [i] =
      a.selectRow filler i >>= fun items => .ok ⟨a.rowShape, items⟩ := by
  have rank : [i].length ≤ a.rank := Nat.pos_of_ne_zero axes
  have shape := shape_eq_cons rank
  have size : ¬ Shape.size a.rowShape < 0 :=
    Int.not_lt.mpr (Shape.size_nonneg h.natural_rowShape)
  have row : descend filler a.shape 0 a.shape [i] a.items = a.selectRow filler i := by
    simp only [selectRow, if_neg size]
    rw [shape]
    simp only [descend, if_neg size, descend_nil]
    cases resolveIndex i a.rowCount with
    | some p => rfl
    | none => cases filler <;> rfl
  have cell : a.shape.drop [i].length = a.rowShape := List.drop_one
  rw [pickPoint, checkWidth, if_neg (Nat.not_lt.mpr rank), row, cell]
  have filled : Yields (Fills (fun _ => True) a.rowShape.cellCount) (a.selectRow filler i) :=
    selectRow_yields h.holds_trivial (fun _ _ => trivial) i
  cases selected : a.selectRow filler i with
  | error e => rfl
  | ok items =>
      rw [selected] at filled
      exact fit_eq_ok (filled.holds h.natural_rowShape).wellFormed.fits

/-- Selecting rows is picking cells below points with one component. -/
theorem select_eq_pick_asPoints (kind : Kind) (filler : Filler α) (wf : index.WellFormed)
    (h : a.WellFormed) (axes : a.rank ≠ 0) :
    select filler index a = pick kind filler index.asPoints a := by
  have points : index.asPoints.toPoints.toList.mapM (a.pickPoint kind filler) =
      index.items.mapM (a.selectRow filler) >>= fun rows =>
        .ok (rows.map (Grid.mk a.rowShape)) := by
    rw [toList_asPoints wf, List.mapM_map, ← Outcome.mapM_bind_ok]
    exact Outcome.mapM_congr fun i _ => pickPoint_singleton kind h axes i
  have shape : a.pickedShape index.asPoints.toPoints.batch index.asPoints.toPoints.width =
      index.shape ++ a.rowShape := by
    rw [toPoints_asPoints]
    exact congrArg _ List.drop_one
  simp only [pick_eq_pickPoints kind filler wf.asPoints h, pickPoints, pickEach, points, shape,
    select_eq_mapM filler a wf]
  cases index.items.mapM (a.selectRow filler) with
  | error e => rfl
  | ok rows =>
      have items : (rows.map (Grid.mk a.rowShape)).flatMap (·.items) = rows.flatten := by
        rw [List.flatMap_map, List.flatMap_id']
      exact congrArg (fun items => Except.ok (Grid.mk _ items)) items.symm

end Grid

/-- What an array of indices selects is what it picks if each index is a point with one component.
Both give the same value, or both refuse the same index. -/
theorem select_eq_pick {index points : Operand} {table : Grid Int} {v : Value} {fill : Fill}
    (read : index.asIntegerGrid .indexTable = .ok table)
    (reshaped : points.asIntegerGrid .indexTable = .ok (table.withShape (table.shape ++ [1])))
    (wf : table.WellFormed) (hv : v.WellFormed) (hf : fill.WellFormed) (axes : v.rank ≠ 0) :
    select index (.value v) fill = pick points (.value v) fill ∧
      ((∃ r, select index (.value v) fill = .ok r ∧ r.WellFormed) ∨
        ∃ cause, select index (.value v) fill = .error (.bounds cause)) := by
  obtain ⟨w, promoted, hw, shape⟩ := Value.promoteFor_wellFormed hf hv
  have h : w.grid.WellFormed := hw.holds.wellFormed
  have axes : w.grid.rank ≠ 0 := by
    rwa [Grid.rank, show w.grid.shape = v.shape from shape]
  have promoted : v.promoteFor fill = .ok (.ofGrid w.form w.grid) :=
    promoted.trans (congrArg _ (Value.ofGrid_grid w).symm)
  have selected := select_promoted read promoted
  have picked : pick points (.value v) fill = (do
      .ok (.ofGrid w.form (← Grid.pick w.form.kind (fill.filler w.form) table.asPoints w.grid))) :=
    pick_promoted reshaped promoted
  have same := Grid.select_eq_pick_asPoints w.form.kind (fill.filler w.form) wf h axes
  refine ⟨by rw [selected, picked, same], ?_⟩
  have width : table.asPoints.toPoints.width.toNat ≤ w.grid.rank := by
    rw [Grid.toPoints_asPoints]
    exact Nat.pos_of_ne_zero axes
  have outcome := Grid.pick_cases w.form.kind (fill.filler w.form) wf.asPoints h width
  have holds := Grid.select_yields wf hw.holds fun x given => hf.valid_of_filler hw.isUniform given
  rw [selected]
  rw [← same] at outcome
  cases found : Grid.select (fill.filler w.form) table w.grid with
  | ok c =>
      rw [found] at holds
      exact .inl ⟨_, rfl, Value.wellFormed_ofGrid hw.isUniform holds⟩
  | error e =>
      rw [found] at outcome
      obtain ⟨why, n, i, d, -, -, rfl⟩ := outcome
      exact .inr ⟨_, rfl⟩

/-- One index of two is out of bounds, and it is refused alike. -/
theorem missing_line_refused_alike :
    let index : Operand := .value (.byte ⟨[2], [1, 4]⟩)
    let points : Operand := .value (.byte ⟨[2, 1], [1, 4]⟩)
    let lines : Grid Int := ⟨[2], [1, 4]⟩
    let table : Value := .character ⟨[2, 2], ['a', 'b', 'c', 'd']⟩
    let refused : Error := .outside 4 2 0 [2, 2] ". A fill value is not available"
    index.asIntegerGrid .indexTable = .ok lines ∧
      points.asIntegerGrid .indexTable = .ok (lines.withShape (lines.shape ++ [1])) ∧
      lines.WellFormed ∧ table.WellFormed ∧ Fill.none.WellFormed ∧ table.rank ≠ 0 ∧
      select index (.value table) .none = .error refused ∧
      pick points (.value table) .none = .error refused := by
  intro index points lines table refused
  have wf : lines.WellFormed := by decide
  have hv : table.WellFormed := .character (by decide)
  have hf : Fill.none.WellFormed := nofun
  have axes : table.rank ≠ 0 := by decide
  have read : index.asIntegerGrid .indexTable = .ok lines := rfl
  have reshaped : points.asIntegerGrid .indexTable =
      .ok (lines.withShape (lines.shape ++ [1])) := rfl
  have selected : select index (.value table) .none = .error refused := rfl
  obtain ⟨same, -⟩ := select_eq_pick read reshaped wf hv hf axes
  exact ⟨read, reshaped, wf, hv, hf, axes, selected, same.symm.trans selected⟩

end RowMajor
